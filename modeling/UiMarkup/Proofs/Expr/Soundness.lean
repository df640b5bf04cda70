import UiMarkup.Proofs.Expr.Grammar

/-!
What the parser returns, the grammar derives. Each reader takes tokens from the front; what
it took derives the phrase that it returns, and the only failure beside a complaint is that
of a number without a value.
-/

namespace UiMarkup.ExprParser

/-- A condition on what was taken of some lexemes, what was read from it and what is left. -/
abbrev Reading (α : Type) := List Lexeme → α → List Lexeme → Prop

/-- A reader fails with a complaint, or on a number without a value, or it takes
lexemes from the front. -/
def Explains {α : Type} {n : Nat} (ls : List Lexeme) (Q : Reading α) :
    Except ExprFault (Parsed α n) → Prop
  | .ok p => ∃ taken, ls = taken ++ lexemes p.rest ∧ Q taken p.value (lexemes p.rest)
  | .error (.malformed _) => True
  | .error (.number _) => ∃ x ∈ ls, ¬ x.Convertible

section

variable {α β : Type} {m n : Nat} {ls : List Lexeme}

theorem Explains.ok {Q : Reading α} {a : α} {rest : List Token} {h : rest.length < n}
    (hq : Q [] a (lexemes rest)) : Explains (lexemes rest) Q (.ok ⟨a, rest, h⟩) :=
  ⟨[], rfl, hq⟩

theorem Explains.missing {Q : Reading α} {stop : Nat} {what : Expected} {ts : List Token} :
    Explains ls Q (.error (missing stop what ts) : Except ExprFault (Parsed α n)) := by
  cases ts <;> trivial

/-- Some lexemes were taken before. -/
theorem Explains.append {Q : Reading α} {before : List Lexeme}
    {r : Except ExprFault (Parsed α n)}
    (h : Explains ls (fun taken a rest => Q (before ++ taken) a rest) r) :
    Explains (before ++ ls) Q r := by
  match r, h with
  | .ok p, ⟨taken, hls, hq⟩ => exact ⟨before ++ taken, by rw [hls, List.append_assoc], hq⟩
  | .error (.malformed _), _ => trivial
  | .error (.number _), ⟨y, hy, hn⟩ => exact ⟨y, List.mem_append_right before hy, hn⟩

theorem Explains.cons {Q : Reading α} {x : Lexeme} {r : Except ExprFault (Parsed α n)}
    (h : Explains ls (fun taken a rest => Q (x :: taken) a rest) r) : Explains (x :: ls) Q r :=
  @Explains.append _ _ _ Q [x] r h

theorem Explains.mono {P Q : Reading α} {r : Except ExprFault (Parsed α n)}
    (h : Explains ls P r)
    (hpq : ∀ taken a rest, ls = taken ++ rest → P taken a rest → Q taken a rest) :
    Explains ls Q r := by
  match r, h with
  | .ok p, ⟨taken, hls, hp⟩ => exact ⟨taken, hls, hpq _ _ _ hls hp⟩
  | .error (.malformed _), _ => trivial
  | .error (.number _), h => exact h

/-- One reader goes on where the other stopped. -/
theorem Explains.bind {P : Reading α} {Q : Reading β} {r : Except ExprFault (Parsed α m)}
    {f : Parsed α m → Except ExprFault (Parsed β n)} (hr : Explains ls P r)
    (hf : ∀ p taken, P taken p.value (lexemes p.rest) →
      Explains (lexemes p.rest) (fun more b rest => Q (taken ++ more) b rest) (f p)) :
    Explains ls Q (r >>= f) := by
  match r, hr with
  | .error (.malformed _), _ => trivial
  | .error (.number _), h => exact h
  | .ok p, ⟨taken, hls, hp⟩ =>
    rw [hls]
    exact (hf p taken hp).append

end

theorem expect_sound (stop : Nat) (l : Lexeme) (what : Expected) (ts : List Token) :
    Explains (lexemes ts) (fun taken _ _ => taken = [l]) (expect stop l what ts) := by
  cases ts with
  | nil => exact Explains.missing
  | cons t ts =>
      rw [expect]
      split
      · rename_i h
        exact ⟨[l], by simp [h], rfl⟩
      · exact Explains.missing

/-- A path does not go on after what was taken. -/
def Whole (taken rest : List Lexeme) : Prop :=
  ∀ path, taken = pathLexemes path → ∀ name after, rest ≠ .symbol .dot :: .name name :: after

theorem Whole.of_rightParen {taken : List Lexeme} (h : .symbol .rightParen ∈ taken)
    (rest : List Lexeme) : Whole taken rest :=
  fun path hp => absurd hp (ne_pathLexemes_of_mem h path)

theorem segments_sound (ts : List Token) :
    (∀ s, .name s :: lexemes ts = pathLexemes (s :: (segments ts).value) ++
      lexemes (segments ts).rest) ∧
      ∀ name after, lexemes (segments ts).rest ≠ .symbol .dot :: .name name :: after := by
  fun_induction segments ts with
  | case1 _ _ n _ _ ts more ih => exact ⟨fun s => by simp [ih.1 n, more], ih.2⟩
  | case2 ts h =>
      refine ⟨fun s => rfl, fun name after heq => ?_⟩
      match ts, heq with
      | ⟨_, _, _⟩ :: ⟨_, _, _⟩ :: us, heq =>
        simp only [lexemes_cons, List.cons.injEq] at heq
        obtain ⟨rfl, rfl, -⟩ := heq
        exact h _ _ _ _ _ _ rfl

/-- What was taken is a phrase. -/
abbrev Is {α : Type} (phrase : α → Phrase) : Reading α := fun taken a _ => Derives taken (phrase a)

/-- What was taken goes on with a phrase that was read before. -/
abbrev Extends (phrase : Expr → Phrase) (left : Expr) : Reading Expr := fun taken e _ =>
  ∀ before, Derives before (phrase left) → Derives (before ++ taken) (phrase e)

/-- What was taken is a phrase and the parenthesis that closes it. -/
abbrev Closes (phrase : List Expr → Phrase) : Reading (List Expr) := fun taken es _ =>
  ∃ ms, taken = ms ++ [.symbol .rightParen] ∧ Derives ms (phrase es)

/-- What each reader of the parser shows about the tokens that it begins at. -/
structure Sound (stop : Nat) (ts : List Token) : Prop where
  expression : Explains (lexemes ts) (Is .expression) (expression stop ts)
  binary : ∀ level, Explains (lexemes ts) (Is (.level level.precedence)) (binary stop level ts)
  binaryTail : ∀ level left,
    Explains (lexemes ts) (Extends (.level level.precedence) left) (binaryTail stop level left ts)
  unary : Explains (lexemes ts) (Is (.level 6)) (unary stop ts)
  calls : ∀ receiver, Explains (lexemes ts)
    (fun taken e _ => ∀ before, Derives before (.chain receiver) → Whole before (lexemes ts) →
      Derives (before ++ taken) (.chain e))
    (calls stop receiver ts)
  arguments : Explains (lexemes ts) (Closes .arguments) (arguments stop ts)
  argumentList : Explains (lexemes ts) (Closes .items) (argumentList stop ts)

section

variable {stop : Nat} {ts : List Token}
    (ih : ∀ us : List Token, us.length < ts.length → Sound stop us)

include ih

theorem binaryTail_sound (level : Level) (left : Expr) :
    Explains (lexemes ts) (Extends (.level level.precedence) left)
      (binaryTail stop level left ts) := by
  have stops : ∀ us : List Token, Explains (lexemes us) (Extends (.level level.precedence) left)
      (.ok (⟨left, us, Nat.lt_succ_self _⟩ : Parsed Expr (us.length + 1))) :=
    fun us => Explains.ok fun before h => by simpa using h
  unfold binaryTail
  split
  · rename_i s o n after
    split
    · rename_i op hop
      obtain ⟨hp, rfl⟩ := Level.operator?_eq_some_iff.mp hop
      have hl : level ≠ .operand := by
        rintro rfl
        cases hop
      refine Explains.cons
        (Explains.bind ((ih after (by simp)).binary level.tighter) fun right taken hr => ?_)
      refine Explains.bind
        ((ih right.rest (by have := right.shorter; simp; omega)).binaryTail level _)
        fun chain more hm => Explains.ok fun before hb => ?_
      rw [Level.precedence_tighter hl, ← hp] at hr
      rw [← hp] at hb hm ⊢
      have := hm _ (Derives.binary op hb hr)
      simpa using this
    · exact stops _
  · exact stops _

theorem unary_sound
    (primary_sound : ∀ t after, ts = t :: after → Explains (lexemes ts)
      (fun taken e rest => Derives taken (.primary e) ∧ Whole taken rest) (primary stop t after)) :
    Explains (lexemes ts) (Is (.level 6)) (unary stop ts) := by
  unfold unary
  split
  · exact Explains.missing
  · rename_i t after
    split
    · rename_i op hop
      rw [lexemes_cons, prefixOp?_eq_some_iff.mp hop]
      refine Explains.cons
        (Explains.bind (ih after (by simp)).unary fun operand taken ho => Explains.ok ?_)
      simpa using Derives.unary op ho
    · refine Explains.bind (primary_sound t after rfl) fun first taken hp => ?_
      refine Explains.bind ((ih first.rest first.shorter).calls _) fun chain more hm =>
        Explains.ok ?_
      simpa using Derives.operand (hm _ (Derives.head hp.1) hp.2)

theorem binary_sound (unary_sound : Explains (lexemes ts) (Is (.level 6)) (unary stop ts))
    (level : Level) :
    Explains (lexemes ts) (Is (.level level.precedence)) (binary stop level ts) := by
  -- the loop over the operators begins at fewer tokens, the operands of the level at the same ones
  induction hr : level.rank generalizing level with
  | zero =>
      have hl : level = .operand := Level.eq_operand (by rw [Level.precedence, hr])
      subst hl
      rw [binary, dif_pos rfl]
      exact unary_sound
  | succ k step =>
      have hl : level ≠ .operand := by
        rintro rfl
        cases hr
      have hp := Level.precedence_tighter hl
      rw [binary, dif_neg hl]
      refine Explains.bind (step level.tighter ?_) fun first taken hf => ?_
      · have := Level.rank_le level
        have := Level.rank_le level.tighter
        simp only [Level.precedence] at hp
        omega
      · refine Explains.bind ((ih first.rest first.shorter).binaryTail level _) fun chain more hm =>
          Explains.ok ?_
        have h5 : level.precedence ≤ 5 := by
          rw [Level.precedence]
          omega
        rw [hp] at hf
        simpa using hm _ (Derives.tighter h5 hf)

theorem calls_sound (receiver : Expr) :
    Explains (lexemes ts)
      (fun taken e _ => ∀ before, Derives before (.chain receiver) → Whole before (lexemes ts) →
        Derives (before ++ taken) (.chain e))
      (calls stop receiver ts) := by
  unfold calls
  split
  · split
    · rename_i method _ _ _ _ inner
      refine Explains.cons (Explains.cons (Explains.cons
        (Explains.bind (ih inner (by simp; omega)).arguments fun args taken ha => ?_)))
      obtain ⟨ms, rfl, ha⟩ := ha
      refine Explains.bind ((ih args.rest (by have := args.shorter; simp; omega)).calls _)
        fun chain more hm => Explains.ok fun before hb hw => ?_
      -- a bare path would have taken the method as its last segment
      have hd := @Derives.methodCall _ _ _ method _ hb (fun path hp => hw path hp method _ rfl) ha
      simpa using hm _ hd (Whole.of_rightParen (by simp) _)
    · exact Explains.missing
    · exact Explains.missing
  · exact Explains.ok fun before h _ => by simpa using h

theorem primary_sound (t : Token) (after : List Token) (hts : ts = t :: after) :
    Explains (lexemes ts) (fun taken e rest => Derives taken (.primary e) ∧ Whole taken rest)
      (primary stop t after) := by
  subst hts
  unfold primary
  split
  · rename_i l hl
    refine Explains.cons (Explains.ok ⟨derives_of_literal? hl, fun path hp => ?_⟩)
    cases path with
    | nil => cases hp
    | cons s path =>
        obtain ⟨more, hmore⟩ := pathLexemes_cons s path
        rw [(List.cons.inj (hp.trans hmore)).1] at hl
        cases hl
  · rename_i fault hf
    exact ⟨t.lexeme, by simp, not_convertible_of_literal? hf⟩
  · split
    · rename_i first hname
      obtain ⟨hread, hend⟩ := segments_sound after
      rw [lexemes_cons, hname, hread first]
      dsimp only
      split
      · rename_i inner hrest
        have hlt := (segments after).shorter
        rw [hrest] at hlt
        -- the grammar splits the path at its last segment, the method
        obtain ⟨path, method, hpath⟩ : ∃ path method,
            first :: (segments after).value = path ++ [method] :=
          ⟨_, _, (List.dropLast_concat_getLast (List.cons_ne_nil _ _)).symm⟩
        rw [congrArg lexemes hrest, hpath]
        have hargs := (ih inner (Nat.lt_of_succ_lt hlt)).arguments
        refine (Explains.cons (Explains.bind hargs fun args _ ha => Explains.ok ?_)).append
        obtain ⟨ms, rfl, ha⟩ := ha
        rw [pathCall_concat]
        exact ⟨by simpa using Derives.pathCall ha, Whole.of_rightParen (by simp) _⟩
      · refine ⟨pathLexemes (first :: (segments after).value), rfl, ?_, fun _ _ => hend⟩
        rw [pathExpr_eq_accessed (List.cons_ne_nil _ _)]
        exact Derives.path (List.cons_ne_nil _ _)
    · rename_i hparen
      rw [lexemes_cons, hparen]
      refine Explains.cons (Explains.bind (ih after (by simp)).expression fun inner taken hi => ?_)
      refine Explains.bind (expect_sound stop _ _ inner.rest) fun close more hm => Explains.ok ?_
      subst hm
      exact ⟨by simpa using Derives.parentheses hi, Whole.of_rightParen (by simp) _⟩
    · exact Explains.missing

theorem expression_sound
    (binary_sound : Explains (lexemes ts) (Is (.level 1)) (binary stop .disjunction ts)) :
    Explains (lexemes ts) (Is .expression) (expression stop ts) := by
  unfold expression
  split
  · rename_i after
    refine Explains.cons
      (Explains.bind ((ih after (by simp)).binary .disjunction) fun c ls hc => ?_)
    refine Explains.bind (expect_sound stop _ _ c.rest) fun t _ ht => ?_
    have h₁ := Nat.lt_trans t.shorter c.shorter
    refine Explains.bind (ih t.rest (by simp; omega)).expression fun yes ms hy => ?_
    refine Explains.bind (expect_sound stop _ _ yes.rest) fun e _ he => ?_
    have h₂ := Nat.lt_trans e.shorter yes.shorter
    refine Explains.bind (ih e.rest (by simp; omega)).expression fun no ns hn => Explains.ok ?_
    subst ht he
    simpa using Derives.conditional hc hy hn
  · exact binary_sound.mono fun _ _ _ _ h => Derives.operators h

theorem argumentList_sound
    (expression_sound : Explains (lexemes ts) (Is .expression) (expression stop ts)) :
    Explains (lexemes ts) (Closes .items) (argumentList stop ts) := by
  unfold argumentList
  refine Explains.bind expression_sound fun first taken hf => ?_
  dsimp only
  split
  · rename_i after hrest
    have hlt := first.shorter
    rw [hrest] at hlt
    rw [congrArg lexemes hrest]
    refine Explains.cons
      (Explains.bind (ih after (Nat.lt_of_succ_lt hlt)).argumentList fun more _ hm =>
        Explains.ok ?_)
    obtain ⟨ms, rfl, hm⟩ := hm
    exact ⟨taken ++ .symbol .comma :: ms, by simp, Derives.more hf hm⟩
  · refine Explains.bind (expect_sound stop _ _ _) fun close _ hc => Explains.ok ?_
    subst hc
    exact ⟨taken, by simp, Derives.last hf⟩

omit ih in
theorem arguments_sound
    (argumentList_sound : Explains (lexemes ts) (Closes .items) (argumentList stop ts)) :
    Explains (lexemes ts) (Closes .arguments) (arguments stop ts) := by
  unfold arguments
  split
  · exact Explains.cons (Explains.ok ⟨[], rfl, Derives.noArguments⟩)
  · refine argumentList_sound.mono fun _ _ _ _ h => ?_
    obtain ⟨ms, hls, h⟩ := h
    exact ⟨ms, hls, Derives.arguments h⟩

end

theorem sound (stop : Nat) (ts : List Token) : Sound stop ts := by
  induction hn : ts.length using Nat.strongRecOn generalizing ts with
  | ind n step =>
      have ih : ∀ us : List Token, us.length < ts.length → Sound stop us :=
        fun us h => step us.length (hn ▸ h) us rfl
      have hunary := unary_sound ih (primary_sound ih)
      have hbinary := binary_sound ih hunary
      have hexpression := expression_sound ih (hbinary .disjunction)
      have hlist := argumentList_sound ih hexpression
      exact ⟨hexpression, hbinary, binaryTail_sound ih, hunary, calls_sound ih,
        arguments_sound hlist, hlist⟩

end UiMarkup.ExprParser
