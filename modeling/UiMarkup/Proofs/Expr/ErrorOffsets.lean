import UiMarkup.Proofs.Expr.Soundness
import UiMarkup.Proofs.Expr.Tokens

/-!
Where the errors of an expression stand. A malformed text has its error at its beginning, at its
end, or at a character that is no blank: the one that begins no token, or the first one of the
token that is not expected.
-/

namespace UiMarkup

/-! ### Tokens -/

namespace Lexer

open Text

/-- At the offset stands a character that is no blank. -/
def AtChar (source : List Char) (offset : Nat) : Prop :=
  ∃ c, source[offset]? = some c ∧ isBlank c = false

theorem atChar_append (before after : List Char) {c : Char} (h : isBlank c = false) :
    AtChar (before ++ c :: after) before.length :=
  ⟨c, by simp, h⟩

theorem Unreadable.exists_cons {cs : List Char} {problem : ExprProblem}
    (h : Unreadable cs problem) : ∃ c more, cs = c :: more ∧ isBlank c = false := by
  cases h with
  | openString hquote _ => exact ⟨_, _, rfl, by rcases hquote with rfl | rfl <;> decide⟩
  | noLexeme hblank _ _ => exact ⟨_, _, rfl, hblank⟩

theorem Scans.atChar {source : List Char} {ts : List Token} (h : Scans 0 source ts) {t : Token}
    (ht : t ∈ ts) : AtChar source t.offset := by
  obtain ⟨before, text, after, rfl, hoffset, -, htext⟩ := h.stands ht
  obtain ⟨c, cs, rfl, hblank, -⟩ := readLexeme_of_writtenAs htext t.lexeme.endsBefore_nil
  rw [hoffset, Nat.zero_add]
  exact atChar_append before (cs ++ after) hblank

theorem atChar_of_scan_error {source : List Char} {e : ExprError} (h : scan source = .error e) :
    AtChar source e.offset := by
  obtain ⟨before, after, ts, rfl, hoffset, -, hproblem⟩ := unreadable_of_scanFrom h
  obtain ⟨c, more, rfl, hblank⟩ := hproblem.exists_cons
  rw [hoffset, Nat.zero_add]
  exact atChar_append before more hblank

end Lexer

/-! ### Readers -/

namespace ExprParser

/-- A reader leaves the end of its tokens, and complains at the end of the text or
at one of its tokens. -/
def Blames {α : Type} {n : Nat} (stop : Nat) (ts : List Token) :
    Except ExprFault (Parsed α n) → Prop
  | .ok p => p.rest <:+ ts
  | .error (.malformed e) => e.offset = stop ∨ ∃ t ∈ ts, e.offset = t.offset
  | .error (.number _) => True

section

variable {α β : Type} {m n stop : Nat} {ts us : List Token}

theorem Blames.ok {a : α} {h : us.length < n} (hs : us <:+ ts) :
    Blames stop ts (.ok ⟨a, us, h⟩ : Except ExprFault (Parsed α n)) :=
  hs

theorem Blames.missing {what : Expected} (hs : us <:+ ts) :
    Blames stop ts (.error (missing stop what us) : Except ExprFault (Parsed α n)) := by
  cases us with
  | nil => exact .inl rfl
  | cons u us => exact .inr ⟨u, hs.subset List.mem_cons_self, rfl⟩

/-- Some tokens were taken before. -/
theorem Blames.of_suffix {r : Except ExprFault (Parsed α n)} (h : Blames stop us r)
    (hs : us <:+ ts) : Blames stop ts r := by
  match r, h with
  | .ok p, h => exact List.IsSuffix.trans h hs
  | .error (.malformed _), .inl h => exact .inl h
  | .error (.malformed _), .inr ⟨t, ht, h⟩ => exact .inr ⟨t, hs.subset ht, h⟩
  | .error (.number _), _ => trivial

/-- One reader goes on where the other stopped. -/
theorem Blames.bind {r : Except ExprFault (Parsed α m)}
    {f : Parsed α m → Except ExprFault (Parsed β n)} (hr : Blames stop ts r)
    (hf : ∀ p, Blames stop p.rest (f p)) : Blames stop ts (r >>= f) := by
  match r, hr with
  | .ok p, hr => exact (hf p).of_suffix hr
  | .error (.malformed _), hr => exact hr
  | .error (.number _), _ => trivial

end

theorem expect_blames (stop : Nat) (l : Lexeme) (what : Expected) (ts : List Token) :
    Blames stop ts (expect stop l what ts) := by
  cases ts with
  | nil => exact Blames.missing List.suffix_rfl
  | cons t ts =>
      rw [expect]
      split
      · exact List.suffix_cons t ts
      · exact Blames.missing List.suffix_rfl

theorem segments_suffix (ts : List Token) : (segments ts).rest <:+ ts := by
  fun_induction segments ts with
  | case1 _ _ _ _ _ ts more ih =>
      exact ih.trans ((List.suffix_cons _ ts).trans (List.suffix_cons _ _))
  | case2 ts => exact List.suffix_rfl

/-- Each reader of the parser complains within the tokens that it begins at. -/
structure Placed (stop : Nat) (ts : List Token) : Prop where
  expression : Blames stop ts (expression stop ts)
  binary : ∀ level, Blames stop ts (binary stop level ts)
  binaryTail : ∀ level left, Blames stop ts (binaryTail stop level left ts)
  unary : Blames stop ts (unary stop ts)
  calls : ∀ receiver, Blames stop ts (calls stop receiver ts)
  arguments : Blames stop ts (arguments stop ts)
  argumentList : Blames stop ts (argumentList stop ts)

section

variable {stop : Nat} {ts : List Token}
    (ih : ∀ us : List Token, us.length < ts.length → Placed stop us)

include ih

theorem binaryTail_blames (level : Level) (left : Expr) :
    Blames stop ts (binaryTail stop level left ts) := by
  unfold binaryTail
  split
  · rename_i s o n after
    split
    · refine Blames.of_suffix
        (Blames.bind ((ih after (by simp)).binary level.tighter) fun right => ?_)
        (List.suffix_cons _ after)
      refine Blames.bind ?_ fun chain => Blames.ok List.suffix_rfl
      exact (ih right.rest (by have := right.shorter; simp; omega)).binaryTail level _
    · exact Blames.ok List.suffix_rfl
  · exact Blames.ok List.suffix_rfl

theorem unary_blames
    (primary_blames : ∀ t after, ts = t :: after → Blames stop ts (primary stop t after)) :
    Blames stop ts (unary stop ts) := by
  unfold unary
  split
  · exact Blames.missing List.suffix_rfl
  · rename_i t after
    split
    · exact Blames.of_suffix
        (Blames.bind (ih after (by simp)).unary fun operand => Blames.ok List.suffix_rfl)
        (List.suffix_cons t after)
    · refine Blames.bind (primary_blames t after rfl) fun first => ?_
      exact Blames.bind ((ih first.rest first.shorter).calls _) fun chain =>
        Blames.ok List.suffix_rfl

theorem binary_blames (unary_blames : Blames stop ts (unary stop ts)) (level : Level) :
    Blames stop ts (binary stop level ts) := by
  -- the loop over the operators begins at fewer tokens, the operands of the level at the same ones
  induction hr : level.rank using Nat.strongRecOn generalizing level with
  | ind k step =>
      subst hr
      by_cases hl : level = .operand
      · rw [binary, dif_pos hl]
        exact unary_blames
      · rw [binary, dif_neg hl]
        refine Blames.bind (step _ (Level.rank_tighter hl) level.tighter rfl) fun first => ?_
        exact Blames.bind ((ih first.rest first.shorter).binaryTail level _) fun chain =>
          Blames.ok List.suffix_rfl

theorem calls_blames (receiver : Expr) : Blames stop ts (calls stop receiver ts) := by
  unfold calls
  split
  · rename_i o n after
    refine Blames.of_suffix ?_ (List.suffix_cons _ after)
    split
    · rename_i method _ _ _ _ inner
      refine Blames.of_suffix (Blames.bind (ih inner (by simp; omega)).arguments fun args => ?_)
        ((List.suffix_cons _ inner).trans (List.suffix_cons _ _))
      refine Blames.bind ?_ fun chain => Blames.ok List.suffix_rfl
      exact (ih args.rest (by have := args.shorter; simp; omega)).calls _
    · exact Blames.missing (List.suffix_cons _ _)
    · exact Blames.missing List.suffix_rfl
  · exact Blames.ok List.suffix_rfl

theorem primary_blames (t : Token) (after : List Token) (hts : ts = t :: after) :
    Blames stop ts (primary stop t after) := by
  subst hts
  unfold primary
  split
  · exact Blames.ok (List.suffix_cons t after)
  · trivial
  · split
    · have hs := segments_suffix after
      dsimp only
      split
      · rename_i inner hrest
        have hlt := (segments after).shorter
        rw [hrest] at hlt hs
        refine Blames.of_suffix ?_
          (((List.suffix_cons _ inner).trans hs).trans (List.suffix_cons t after))
        exact Blames.bind (ih inner (Nat.lt_of_succ_lt hlt)).arguments fun args =>
          Blames.ok List.suffix_rfl
      · exact Blames.ok (hs.trans (List.suffix_cons t after))
    · refine Blames.of_suffix (Blames.bind (ih after (by simp)).expression fun inner => ?_)
        (List.suffix_cons t after)
      exact Blames.bind (expect_blames stop _ _ inner.rest) fun close => Blames.ok List.suffix_rfl
    · exact Blames.missing List.suffix_rfl

theorem expression_blames (binary_blames : Blames stop ts (binary stop .disjunction ts)) :
    Blames stop ts (expression stop ts) := by
  unfold expression
  split
  · rename_i after
    refine Blames.of_suffix (Blames.bind ((ih after (by simp)).binary .disjunction) fun c => ?_)
      (List.suffix_cons _ after)
    refine Blames.bind (expect_blames stop _ _ c.rest) fun t => ?_
    have h₁ := Nat.lt_trans t.shorter c.shorter
    refine Blames.bind (ih t.rest (by simp; omega)).expression fun yes => ?_
    refine Blames.bind (expect_blames stop _ _ yes.rest) fun e => ?_
    have h₂ := Nat.lt_trans e.shorter yes.shorter
    exact Blames.bind (ih e.rest (by simp; omega)).expression fun no => Blames.ok List.suffix_rfl
  · exact binary_blames

theorem argumentList_blames (expression_blames : Blames stop ts (expression stop ts)) :
    Blames stop ts (argumentList stop ts) := by
  unfold argumentList
  refine Blames.bind expression_blames fun first => ?_
  dsimp only
  split
  · rename_i after hrest
    have hlt := first.shorter
    rw [hrest] at hlt
    refine Blames.of_suffix ?_ (hrest ▸ List.suffix_cons _ after)
    exact Blames.bind (ih after (Nat.lt_of_succ_lt hlt)).argumentList fun more =>
      Blames.ok List.suffix_rfl
  · exact Blames.bind (expect_blames stop _ _ _) fun close => Blames.ok List.suffix_rfl

omit ih in
theorem arguments_blames (argumentList_blames : Blames stop ts (argumentList stop ts)) :
    Blames stop ts (arguments stop ts) := by
  unfold arguments
  split
  · exact Blames.ok (List.suffix_cons _ _)
  · exact argumentList_blames

end

theorem placed (stop : Nat) (ts : List Token) : Placed stop ts := by
  induction hn : ts.length using Nat.strongRecOn generalizing ts with
  | ind n step =>
      have ih : ∀ us : List Token, us.length < ts.length → Placed stop us :=
        fun us h => step us.length (hn ▸ h) us rfl
      have hunary := unary_blames ih (primary_blames ih)
      have hbinary := binary_blames ih hunary
      have hexpression := expression_blames ih (hbinary .disjunction)
      have hlist := argumentList_blames ih hexpression
      exact ⟨hexpression, hbinary, binaryTail_blames ih, hunary, calls_blames ih,
        arguments_blames hlist, hlist⟩

/-! ### Expressions -/

/-- An error stands at the beginning of the text, at its end, or at a character that is no blank. -/
theorem parse_malformed {source : List Char} {e : ExprError}
    (h : parse source = .error (.malformed e)) :
    e.offset = 0 ∨ e.offset = source.length ∨ ∃ c, source[e.offset]? = some c ∧
      Text.isBlank c = false := by
  rw [parse] at h
  split at h
  · rename_i e' he
    cases h
    exact .inr (.inr (Lexer.atChar_of_scan_error he))
  · cases h
    exact .inl rfl
  · rename_i ts stop _ hscan
    obtain ⟨hscans, rfl⟩ := Lexer.scan_eq_ok_iff.mp hscan
    have hread := (placed source.length ts).expression
    have blamed : e.offset = source.length ∨ ∃ t ∈ ts, e.offset = t.offset := by
      cases hr : expression source.length ts with
      | error fault =>
          rw [hr] at h hread
          cases h
          exact hread
      | ok p =>
          rw [hr] at h hread
          cases hrest : p.rest with
          | nil => simp [bind, Except.bind, hrest, pure, Except.pure] at h
          | cons t rest =>
              have hmem : t ∈ ts :=
                List.IsSuffix.subset hread (by rw [hrest]; exact List.mem_cons_self)
              simp only [bind, Except.bind, hrest, missing, Except.error.injEq,
                ExprFault.malformed.injEq] at h
              subst h
              exact .inr ⟨t, hmem, rfl⟩
    rcases blamed with hstop | ⟨t, ht, hoff⟩
    · exact .inr (.inl hstop)
    · rw [hoff]
      exact .inr (.inr (hscans.atChar ht))

theorem offset_le_length {source : List Char} {e : ExprError}
    (h : parse source = .error (.malformed e)) : e.offset ≤ source.length := by
  rcases parse_malformed h with h | h | ⟨c, hc, -⟩
  · omega
  · omega
  · obtain ⟨hlt, -⟩ := List.getElem?_eq_some_iff.mp hc
    exact Nat.le_of_lt hlt

end ExprParser
end UiMarkup
