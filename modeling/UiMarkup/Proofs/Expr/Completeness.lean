import UiMarkup.Proofs.Expr.Soundness

/-!
What the grammar derives, the parser returns, so that the grammar is unambiguous.

A phrase is read in front of tokens that cannot belong to it. A chain of operators is read as its
first operand is, with the rest of the chain left to the loop over the operators.
-/

namespace UiMarkup

theorem BinaryOp.symbol_inj {a b : BinaryOp} : a.symbol = b.symbol ↔ a = b := by
  cases a <;> cases b <;> decide

namespace ExprParser

/-- The first lexemes that a phrase never has. -/
def Phrase.avoided : Phrase → List Lexeme
  | .expression _ | .items _ => [.symbol .rightParen]
  | .level _ _ | .chain _ | .primary _ => [.symbol .rightParen, .keyword .ifWord]
  | .arguments _ => []

theorem Derives.opens {ls : List Lexeme} {p : Phrase} (h : Derives ls p)
    (hp : ∀ es, p ≠ .arguments es) : ∃ x more, ls = x :: more ∧ x ∉ p.avoided := by
  induction h with
  | conditional _ _ _ _ _ _ => exact ⟨_, _, rfl, by simp [Phrase.avoided]⟩
  | operators _ ih =>
      obtain ⟨x, more, rfl, hx⟩ := ih (by simp)
      exact ⟨x, more, rfl, fun h => hx (List.mem_cons.mpr (.inl (List.mem_singleton.mp h)))⟩
  | binary _ _ _ ih _ | methodCall _ _ _ ih _ | more _ _ ih _ =>
      obtain ⟨x, more, rfl, hx⟩ := ih (by simp)
      exact ⟨x, _, rfl, hx⟩
  | tighter _ _ ih | operand _ ih | head _ ih | last _ ih => exact ih (by simp)
  | unary op _ _ => exact ⟨_, _, rfl, by cases op <;> simp [Phrase.avoided, UnaryOp.symbol]⟩
  | string _ | integer _ | float _ | trueValue | falseValue | parentheses _ _ =>
      exact ⟨_, _, rfl, by simp [Phrase.avoided]⟩
  | path hpath =>
      obtain ⟨s, path, rfl⟩ := List.exists_cons_of_ne_nil hpath
      obtain ⟨more, hmore⟩ := pathLexemes_cons s path
      exact ⟨_, _, hmore, by simp [Phrase.avoided]⟩
  | @pathCall _ path method _ _ _ =>
      obtain ⟨s, more, hs⟩ := List.exists_cons_of_ne_nil (List.concat_ne_nil method path)
      obtain ⟨ls, hls⟩ := pathLexemes_cons s more
      exact ⟨_, _, by rw [hs, hls]; rfl, by simp [Phrase.avoided]⟩
  | noArguments | arguments _ _ => exact absurd rfl (hp _)

/-- Tokens that go on with no phrase: no call, no path and no operator of a level or above. -/
def Stops (k : Nat) (rest : List Token) : Prop :=
  ∀ x ∈ (lexemes rest).head?, x ≠ .symbol .leftParen ∧ x ≠ .symbol .dot ∧
    ∀ op : BinaryOp, k ≤ op.precedence → x ≠ .symbol op.symbol

theorem Stops.nil (k : Nat) : Stops k [] := by
  intro x h
  cases h

theorem stops_cons {k o n : Nat} {x : Lexeme} {rest : List Token} :
    Stops k (⟨x, o, n⟩ :: rest) ↔ x ≠ .symbol .leftParen ∧ x ≠ .symbol .dot ∧
      ∀ op : BinaryOp, k ≤ op.precedence → x ≠ .symbol op.symbol := by
  simp [Stops]

theorem Stops.mono {k m : Nat} {rest : List Token} (h : Stops k rest) (hkm : k ≤ m) :
    Stops m rest :=
  fun x hx => ⟨(h x hx).1, (h x hx).2.1, fun op hop => (h x hx).2.2 op (Nat.le_trans hkm hop)⟩

theorem Stops.of_delimiter {x : Lexeme}
    (h : x ∈ [.keyword .thenWord, .keyword .elseWord, .symbol .comma, .symbol .rightParen])
    (k o n : Nat) (rest : List Token) : Stops k (⟨x, o, n⟩ :: rest) := by
  rw [stops_cons]
  simp only [List.mem_cons, List.not_mem_nil, or_false] at h
  obtain rfl | rfl | rfl | rfl := h <;>
    exact ⟨by decide, by decide, fun op _ => by cases op <;> decide⟩

/-- An operator ends the phrases that bind tighter. -/
theorem Stops.of_operator (op : BinaryOp) (o n : Nat) (rest : List Token) :
    Stops (op.precedence + 1) (⟨.symbol op.symbol, o, n⟩ :: rest) := by
  rw [stops_cons]
  refine ⟨by cases op <;> decide, by cases op <;> decide, fun other hlt heq => ?_⟩
  obtain rfl := BinaryOp.symbol_inj.mp (Lexeme.symbol.inj heq)
  omega

theorem Stops.not_dot {k : Nat} {rest : List Token} (h : Stops k rest) (name : String)
    (after : List Lexeme) : lexemes rest ≠ .symbol .dot :: .name name :: after :=
  fun heq => (h (.symbol .dot) (by rw [heq]; rfl)).2.1 rfl

theorem lexemes_eq_cons {ts : List Token} {x : Lexeme} {ls : List Lexeme}
    (h : lexemes ts = x :: ls) : ∃ o n us, ts = ⟨x, o, n⟩ :: us ∧ lexemes us = ls := by
  cases ts with
  | nil => cases h
  | cons t us =>
      obtain ⟨rfl, rfl⟩ := List.cons.inj h
      exact ⟨t.offset, t.length, us, rfl, rfl⟩

theorem lexemes_eq_append_cons {ts : List Token} {x : Lexeme} {ls ms : List Lexeme}
    (h : lexemes ts = ls ++ x :: ms) :
    ∃ us o n vs, ts = us ++ ⟨x, o, n⟩ :: vs ∧ lexemes us = ls ∧ lexemes vs = ms := by
  obtain ⟨us, vs, rfl, hus, hvs⟩ := List.map_eq_append_iff.mp h
  obtain ⟨o, n, ws, rfl, hws⟩ := lexemes_eq_cons hvs
  exact ⟨us, o, n, ws, rfl, hus, hws⟩

theorem lexemes_eq_concat {ts : List Token} {x : Lexeme} {ls : List Lexeme}
    (h : lexemes ts = ls ++ [x]) : ∃ us o n, ts = us ++ [⟨x, o, n⟩] ∧ lexemes us = ls := by
  obtain ⟨us, o, n, vs, rfl, hus, hvs⟩ := lexemes_eq_append_cons h
  obtain rfl := List.map_eq_nil_iff.mp hvs
  exact ⟨us, o, n, rfl, hus⟩

/-- A reader returns a value and leaves some tokens. -/
def Gives {α : Type} {n : Nat} (r : Except ExprFault (Parsed α n)) (a : α) (rest : List Token) :
    Prop :=
  ∃ h, r = .ok ⟨a, rest, h⟩

section

variable {α β : Type} {m n : Nat}

theorem Gives.ok {a b : α} {rest rest' : List Token} {h : rest.length < n} (ha : a = b)
    (hr : rest = rest') : Gives (.ok (⟨a, rest, h⟩ : Parsed α n)) b rest' := by
  subst ha hr
  exact ⟨h, rfl⟩

theorem Gives.bind {r : Except ExprFault (Parsed α m)}
    {f : Parsed α m → Except ExprFault (Parsed β n)} {a : α} {b : β} {mid rest : List Token}
    (hr : Gives r a mid) (hf : ∀ h, Gives (f ⟨a, mid, h⟩) b rest) :
    Gives (r >>= f) b rest := by
  obtain ⟨h, rfl⟩ := hr
  exact hf h

theorem Gives.unique {r : Except ExprFault (Parsed α n)} {a b : α} {rest rest' : List Token}
    (h : Gives r a rest) (h' : Gives r b rest') : a = b ∧ rest = rest' := by
  obtain ⟨_, rfl⟩ := h
  obtain ⟨_, h⟩ := h'
  cases h
  exact ⟨rfl, rfl⟩

end

section

variable {stop : Nat}

theorem expect_gives (x : Lexeme) (what : Expected) (o n : Nat) (rest : List Token) :
    Gives (expect stop x what (⟨x, o, n⟩ :: rest)) () rest := by
  refine ⟨by simp, ?_⟩
  rw [expect, if_pos rfl]

theorem binaryTail_stops {level : Level} {rest : List Token} (h : Stops level.precedence rest)
    (e : Expr) : Gives (binaryTail stop level e rest) e rest := by
  unfold binaryTail
  split
  · split
    · rename_i op hop
      obtain ⟨hp, rfl⟩ := Level.operator?_eq_some_iff.mp hop
      exact absurd rfl ((h _ rfl).2.2 op (Nat.le_of_eq hp.symm))
    · exact ⟨_, rfl⟩
  · exact ⟨_, rfl⟩

theorem binaryTail_operand (e : Expr) (rest : List Token) :
    Gives (binaryTail stop .operand e rest) e rest := by
  unfold binaryTail
  split
  · exact ⟨_, rfl⟩
  · exact ⟨_, rfl⟩

theorem calls_stops {k : Nat} {rest : List Token} (h : Stops k rest) (e : Expr) :
    Gives (calls stop e rest) e rest := by
  unfold calls
  split
  · exact absurd rfl (h _ rfl).2.1
  · exact ⟨_, rfl⟩

theorem segments_complete {s : String} {path : List String} {ts : List Token} (rest : List Token)
    (hts : .name s :: lexemes ts = pathLexemes (s :: path))
    (hrest : ∀ name after, lexemes rest ≠ .symbol .dot :: .name name :: after) :
    (segments (ts ++ rest)).value = path ∧ (segments (ts ++ rest)).rest = rest := by
  induction path generalizing s ts with
  | nil =>
      have hts : lexemes ts = [] := (List.cons.inj hts).2
      obtain rfl := List.map_eq_nil_iff.mp hts
      rw [List.nil_append]
      unfold segments
      split
      · exact absurd rfl (hrest _ _)
      · exact ⟨rfl, rfl⟩
  | cons t path ih =>
      obtain ⟨more, hmore⟩ := pathLexemes_cons t path
      rw [pathLexemes_cons_cons, hmore] at hts
      obtain ⟨o, n, us, rfl, hus⟩ := lexemes_eq_cons (List.cons.inj hts).2
      obtain ⟨o', n', vs, rfl, hvs⟩ := lexemes_eq_cons hus
      obtain ⟨hv, hr⟩ := @ih t vs (by rw [hvs, hmore])
      simp only [List.cons_append, segments, hv, hr, and_self]

/-- How the parser reads a phrase in front of tokens that do not belong to it. -/
def Reads (stop : Nat) (ls : List Lexeme) : Phrase → Prop
  | .expression e => ∀ ts rest, lexemes ts = ls → Stops 1 rest →
      Gives (expression stop (ts ++ rest)) e rest
  | .level k e => ∀ ts rest level, lexemes ts = ls → Level.precedence level = k →
      Stops (k + 1) rest →
      ∀ a after, Gives (binaryTail stop level e rest) a after →
        Gives (binary stop level (ts ++ rest)) a after
  | .chain e => ∀ ts rest, lexemes ts = ls → (∀ path, ls = pathLexemes path → Stops 7 rest) →
      ∀ a after, Gives (calls stop e rest) a after → Gives (unary stop (ts ++ rest)) a after
  | .primary e => ∀ ts rest, lexemes ts = ls → (∀ path, ls = pathLexemes path → Stops 7 rest) →
      ∃ t after, ts ++ rest = t :: after ∧ prefixOp? t.lexeme = none ∧
        Gives (primary stop t after) e rest
  | .arguments es => ∀ ts rest o n, lexemes ts = ls →
      Gives (arguments stop (ts ++ ⟨.symbol .rightParen, o, n⟩ :: rest)) es rest
  | .items es => ∀ ts rest o n, lexemes ts = ls →
      Gives (argumentList stop (ts ++ ⟨.symbol .rightParen, o, n⟩ :: rest)) es rest

variable {ls ms ns : List Lexeme}

theorem Reads.level_one {e : Expr} (h : Reads stop ls (.level 1 e)) {ts rest : List Token}
    (hts : lexemes ts = ls) (hs : Stops 1 rest) :
    Gives (binary stop .disjunction (ts ++ rest)) e rest :=
  h ts rest .disjunction hts rfl (hs.mono (by decide)) e rest
    (binaryTail_stops (show Stops (Level.precedence .disjunction) rest from hs) e)

theorem Reads.operators {e : Expr} (h : Reads stop ls (.level 1 e)) (hd : Derives ls (.level 1 e)) :
    Reads stop ls (.expression e) := by
  intro ts rest hts hs
  have hb := h.level_one hts hs
  obtain ⟨x, more, rfl, hx⟩ := hd.opens (by simp)
  obtain ⟨o, n, us, rfl, -⟩ := lexemes_eq_cons hts
  generalize hall : ⟨x, o, n⟩ :: us ++ rest = all at hb ⊢
  unfold expression
  split
  · -- a chain of operators never begins with the word of a conditional
    cases hall
    exact absurd (List.mem_cons_of_mem _ (List.mem_singleton.mpr rfl)) hx
  · exact hb

theorem Reads.conditional {c t e : Expr} (hc : Reads stop ls (.level 1 c))
    (ht : Reads stop ms (.expression t)) (he : Reads stop ns (.expression e)) :
    Reads stop (.keyword .ifWord :: (ls ++ .keyword .thenWord :: (ms ++ .keyword .elseWord :: ns)))
      (.expression (.conditional c t e)) := by
  intro ts rest hts hs
  obtain ⟨_, _, ts', rfl, hts'⟩ := lexemes_eq_cons hts
  obtain ⟨us, _, _, vs', rfl, hus, hvs'⟩ := lexemes_eq_append_cons hts'
  obtain ⟨vs, _, _, ws, rfl, hvs, hws⟩ := lexemes_eq_append_cons hvs'
  rw [List.cons_append, List.append_assoc, List.cons_append, List.append_assoc,
    List.cons_append, expression]
  refine Gives.bind (hc.level_one hus (Stops.of_delimiter (by simp) 1 _ _ _)) fun _ => ?_
  refine Gives.bind (expect_gives _ _ _ _ _) fun _ => ?_
  refine Gives.bind (ht vs _ hvs (Stops.of_delimiter (by simp) 1 _ _ _)) fun _ => ?_
  refine Gives.bind (expect_gives _ _ _ _ _) fun _ => ?_
  exact Gives.bind (he ws rest hws hs) fun _ => ⟨_, rfl⟩

theorem Reads.binary {l r : Expr} (op : BinaryOp) (hl : Reads stop ls (.level op.precedence l))
    (hr : Reads stop ms (.level (op.precedence + 1) r)) :
    Reads stop (ls ++ .symbol op.symbol :: ms) (.level op.precedence (.binary op l r)) := by
  intro ts rest level hts hlevel hs a after htail
  obtain ⟨us, o, n, vs, rfl, hus, hvs⟩ := lexemes_eq_append_cons hts
  have hop : level.operator? op.symbol = some op :=
    Level.operator?_eq_some_iff.mpr ⟨hlevel.symm, rfl⟩
  have htight : level.tighter.precedence = op.precedence + 1 := by
    rw [Level.precedence_tighter, hlevel]
    rintro rfl
    cases hop
  rw [List.append_assoc, List.cons_append]
  -- the left operand leaves the operator to the loop, which reads the right one and goes on
  refine hl us _ level hus hlevel (Stops.of_operator op _ _ _) a after ?_
  have hright : Gives (ExprParser.binary stop level.tighter (vs ++ rest)) r rest := by
    refine hr vs rest _ hvs htight (hs.mono (Nat.le_succ _)) r rest (binaryTail_stops ?_ r)
    rwa [htight]
  rw [binaryTail]
  simp only [hop]
  exact Gives.bind hright fun _ => Gives.bind htail fun _ => ⟨_, rfl⟩

theorem Reads.tighter {k : Nat} {e : Expr} (hk : k ≤ 5) (h : Reads stop ls (.level (k + 1) e)) :
    Reads stop ls (.level k e) := by
  intro ts rest level hts hlevel hs a after htail
  have hne : level ≠ .operand := by
    rintro rfl
    rw [← hlevel] at hk
    exact absurd hk (by decide)
  have htight : level.tighter.precedence = k + 1 := by rw [Level.precedence_tighter hne, hlevel]
  have hfirst : Gives (ExprParser.binary stop level.tighter (ts ++ rest)) e rest := by
    refine h ts rest _ hts htight (hs.mono (Nat.le_succ _)) e rest (binaryTail_stops ?_ e)
    rwa [htight]
  rw [ExprParser.binary, dif_neg hne]
  exact Gives.bind hfirst fun _ => Gives.bind htail fun _ => ⟨_, rfl⟩

/-- Below all the levels the loop over the operators has nothing to do. -/
theorem Reads.of_unary {e : Expr}
    (h : ∀ ts rest, lexemes ts = ls → Stops 7 rest →
      Gives (ExprParser.unary stop (ts ++ rest)) e rest) :
    Reads stop ls (.level 6 e) := by
  intro ts rest level hts hlevel hs a after htail
  obtain rfl := Level.eq_operand hlevel
  obtain ⟨rfl, rfl⟩ := htail.unique (binaryTail_operand e rest)
  rw [ExprParser.binary, dif_pos rfl]
  exact h ts _ hts hs

theorem Reads.unary {e : Expr} (op : UnaryOp) (h : Reads stop ls (.level 6 e)) :
    Reads stop (.symbol op.symbol :: ls) (.level 6 (.unary op e)) := by
  refine Reads.of_unary fun ts rest hts hs => ?_
  obtain ⟨o, n, us, rfl, hus⟩ := lexemes_eq_cons hts
  have hop : prefixOp? (.symbol op.symbol) = some op := prefixOp?_eq_some_iff.mpr rfl
  have hoperand := h us rest .operand hus rfl hs e rest (binaryTail_operand e rest)
  rw [ExprParser.binary, dif_pos rfl] at hoperand
  rw [List.cons_append, ExprParser.unary]
  simp only [hop]
  exact Gives.bind hoperand fun _ => ⟨_, rfl⟩

theorem Reads.operand {e : Expr} (h : Reads stop ls (.chain e)) : Reads stop ls (.level 6 e) :=
  Reads.of_unary fun ts rest hts hs => h ts rest hts (fun _ _ => hs) e rest (calls_stops hs e)

theorem Reads.head {e : Expr} (h : Reads stop ls (.primary e)) : Reads stop ls (.chain e) := by
  intro ts rest hts hs a after hcalls
  obtain ⟨t, us, htokens, hop, hfirst⟩ := h ts rest hts hs
  rw [htokens, ExprParser.unary]
  simp only [hop]
  exact Gives.bind hfirst fun _ => Gives.bind hcalls fun _ => ⟨_, rfl⟩

theorem Reads.methodCall {e : Expr} {method : String} {es : List Expr}
    (h : Reads stop ls (.chain e)) (hpath : ∀ path, ls ≠ pathLexemes path)
    (hargs : Reads stop ms (.arguments es)) :
    Reads stop
      (ls ++ Lexeme.symbol .dot :: .name method :: .symbol .leftParen ::
        (ms ++ [.symbol .rightParen]))
      (.chain (.call e method es)) := by
  intro ts rest hts _ a after hcalls
  obtain ⟨us, _, _, ws, rfl, hus, hws⟩ := lexemes_eq_append_cons hts
  obtain ⟨_, _, ws', rfl, hws'⟩ := lexemes_eq_cons hws
  obtain ⟨_, _, ws'', rfl, hws''⟩ := lexemes_eq_cons hws'
  obtain ⟨vs, o, n, rfl, hvs⟩ := lexemes_eq_concat hws''
  rw [List.append_assoc]
  refine h us _ hus (fun path hp => absurd hp (hpath path)) a after ?_
  rw [List.cons_append, List.cons_append, List.cons_append, List.append_assoc, calls]
  exact Gives.bind (hargs vs rest o n hvs) fun _ => Gives.bind hcalls fun _ => ⟨_, rfl⟩

theorem Reads.literal {x : Lexeme} {l : Literal} (h : literal? x = some (.ok l)) :
    Reads stop [x] (.primary (.literal l)) := by
  intro ts rest hts _
  obtain ⟨o, n, us, rfl, hus⟩ := lexemes_eq_cons hts
  obtain rfl := List.map_eq_nil_iff.mp hus
  refine ⟨_, _, rfl, ?_, ?_⟩
  · cases hop : prefixOp? x with
    | none => rfl
    | some op =>
        rw [prefixOp?_eq_some_iff.mp hop] at h
        cases h
  · rw [primary]
    simp only [h]
    exact ⟨_, rfl⟩

theorem Reads.parentheses {e : Expr} (h : Reads stop ls (.expression e)) :
    Reads stop (.symbol .leftParen :: (ls ++ [.symbol .rightParen])) (.primary e) := by
  intro ts rest hts _
  obtain ⟨_, _, ts', rfl, hts'⟩ := lexemes_eq_cons hts
  obtain ⟨us, _, _, rfl, hus⟩ := lexemes_eq_concat hts'
  refine ⟨_, _, List.cons_append, rfl, ?_⟩
  rw [List.append_assoc, primary]
  refine Gives.bind (h us _ hus (Stops.of_delimiter (by simp) 1 _ _ _)) fun _ => ?_
  exact Gives.bind (expect_gives _ _ _ _ _) fun _ => ⟨_, rfl⟩

theorem Reads.path {path : List String} (hne : path ≠ []) :
    Reads stop (pathLexemes path) (.primary (accessed path)) := by
  intro ts rest hts hs
  have hrest := hs path rfl
  obtain ⟨s, more, rfl⟩ := List.exists_cons_of_ne_nil hne
  obtain ⟨ls, hls⟩ := pathLexemes_cons s more
  obtain ⟨o, n, us, rfl, hus⟩ := lexemes_eq_cons (hts.trans hls)
  obtain ⟨hvalue, hleft⟩ := segments_complete rest (by rw [hus, hls]) hrest.not_dot
  refine ⟨_, _, List.cons_append, rfl, ?_⟩
  unfold primary
  dsimp only [literal?]
  split
  · rename_i heq
    rw [hleft] at heq
    rw [heq] at hrest
    exact absurd rfl (stops_cons.mp hrest).1
  · exact Gives.ok (by rw [hvalue, pathExpr_eq_accessed hne]) hleft

theorem Reads.pathCall {path : List String} {method : String} {es : List Expr}
    (hargs : Reads stop ms (.arguments es)) :
    Reads stop
      (pathLexemes (path ++ [method]) ++ Lexeme.symbol .leftParen :: (ms ++ [.symbol .rightParen]))
      (.primary (.call (receiver path) method es)) := by
  intro ts rest hts _
  obtain ⟨us₁, o, n, vs₁, rfl, hus₁, hvs₁⟩ := lexemes_eq_append_cons hts
  obtain ⟨vs, o', n', rfl, hvs⟩ := lexemes_eq_concat hvs₁
  obtain ⟨s, more, hpath⟩ := List.exists_cons_of_ne_nil (List.concat_ne_nil method path)
  rw [hpath] at hus₁
  obtain ⟨ls, hls⟩ := pathLexemes_cons s more
  obtain ⟨_, _, us, rfl, hus⟩ := lexemes_eq_cons (hus₁.trans hls)
  rw [List.append_assoc, List.cons_append, List.cons_append, List.append_assoc, List.cons_append,
    List.nil_append]
  refine ⟨_, _, rfl, rfl, ?_⟩
  -- the segments end at the parenthesis, so all of the path is read before it
  obtain ⟨hvalue, hleft⟩ := segments_complete
    (⟨.symbol .leftParen, o, n⟩ :: (vs ++ ⟨.symbol .rightParen, o', n'⟩ :: rest))
    (by rw [hus, hls]) (by simp)
  unfold primary
  dsimp only [literal?]
  split
  · rename_i heq
    rw [hleft] at heq
    cases heq
    refine Gives.bind (hargs vs rest o' n' hvs) fun _ => Gives.ok ?_ rfl
    rw [hvalue, ← hpath, pathCall_concat]
  · rename_i h
    exact absurd hleft (h _ _ _)

theorem Reads.noArguments : Reads stop [] (.arguments []) := by
  intro ts rest o n hts
  obtain rfl := List.map_eq_nil_iff.mp hts
  rw [List.nil_append, ExprParser.arguments]
  exact ⟨_, rfl⟩

theorem Reads.arguments {es : List Expr} (h : Reads stop ls (.items es))
    (hd : Derives ls (.items es)) : Reads stop ls (.arguments es) := by
  intro ts rest o n hts
  have hlist := h ts rest o n hts
  obtain ⟨x, more, rfl, hx⟩ := hd.opens (by simp)
  obtain ⟨o', n', us, rfl, -⟩ := lexemes_eq_cons hts
  generalize hall : ⟨x, o', n'⟩ :: us ++ ⟨.symbol .rightParen, o, n⟩ :: rest = all at hlist ⊢
  unfold ExprParser.arguments
  split
  · cases hall
    exact absurd (List.mem_singleton.mpr rfl) hx
  · exact hlist

theorem Reads.last {e : Expr} (h : Reads stop ls (.expression e)) : Reads stop ls (.items [e]) := by
  intro ts rest o n hts
  rw [argumentList]
  refine Gives.bind (h ts _ hts (Stops.of_delimiter (by simp) 1 _ _ _)) fun _ => ?_
  exact Gives.bind (expect_gives _ _ _ _ _) fun _ => ⟨_, rfl⟩

theorem Reads.more {e : Expr} {es : List Expr} (h : Reads stop ls (.expression e))
    (hes : Reads stop ms (.items es)) :
    Reads stop (ls ++ .symbol .comma :: ms) (.items (e :: es)) := by
  intro ts rest o n hts
  obtain ⟨us, _, _, vs, rfl, hus, hvs⟩ := lexemes_eq_append_cons hts
  rw [List.append_assoc, List.cons_append, argumentList]
  refine Gives.bind (h us _ hus (Stops.of_delimiter (by simp) 1 _ _ _)) fun _ => ?_
  exact Gives.bind (hes vs rest o n hvs) fun _ => ⟨_, rfl⟩

theorem reads_of_derives (stop : Nat) {p : Phrase} (h : Derives ls p) : Reads stop ls p := by
  induction h with
  | conditional _ _ _ hc ht he => exact Reads.conditional hc ht he
  | operators hd ih => exact ih.operators hd
  | binary op _ _ hl hr => exact Reads.binary op hl hr
  | tighter hk _ ih => exact ih.tighter hk
  | unary op _ ih => exact ih.unary op
  | operand _ ih => exact ih.operand
  | methodCall _ hpath _ ih hargs => exact ih.methodCall hpath hargs
  | head _ ih => exact ih.head
  | string _ => exact Reads.literal rfl
  | integer hn => exact Reads.literal (by rw [literal?, hn]; rfl)
  | float hx => exact Reads.literal (by rw [literal?, hx]; rfl)
  | trueValue | falseValue => exact Reads.literal rfl
  | path hne => exact Reads.path hne
  | pathCall _ hargs => exact hargs.pathCall
  | parentheses _ ih => exact ih.parentheses
  | noArguments => exact Reads.noArguments
  | arguments hd ih => exact ih.arguments hd
  | last _ ih => exact ih.last
  | more _ _ he hes => exact he.more hes

end

end ExprParser
end UiMarkup
