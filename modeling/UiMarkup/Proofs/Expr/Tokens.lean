import UiMarkup.Proofs.Expr.Lexemes
import UiMarkup.Proofs.Outcome

/-!
From a text to its tokens. They stand for all of the text but for blanks, and the text of each of
them alone is that token again (`marked_lossless`); a text without tokens has a quote that is not
closed, or a character that begins none.
-/

namespace UiMarkup

open Text

namespace Lexer

/-- The tokens of a text that begins at an offset. Blanks go, and each lexeme ends before what
does not go on with it. -/
inductive Scans : Nat → List Char → List Token → Prop
  | done (offset : Nat) : Scans offset [] []
  | blank {offset : Nat} {c : Char} {cs : List Char} {ts : List Token} :
      isBlank c → Scans (offset + 1) cs ts →
      Scans offset (c :: cs) ts
  | token {offset : Nat} {x : Lexeme} {text rest : List Char} {ts : List Token} : x.WrittenAs text →
      x.EndsBefore rest → Scans (offset + text.length) rest ts →
      Scans offset (text ++ rest) (⟨x, offset, text.length⟩ :: ts)

section

variable {offset : Nat} {cs : List Char} {ts : List Token}

/-- What the lexer goes on with, behind a text. -/
theorem drop_of_writtenAs {x : Lexeme} {c : Char} {text rest : List Char} (htext : x.WrittenAs text)
    (hcs : c :: cs = text ++ rest) : cs.drop (text.length - 1) = rest := by
  obtain ⟨c', cs', rfl, -, -⟩ := readLexeme_of_writtenAs htext x.endsBefore_nil
  rw [(List.cons.inj hcs).2]
  simp

/-- What is read off a text stands for all of it, so its last position is the length of the text. -/
theorem scans_of_scanFrom {stop : Nat} (h : scanFrom offset cs = .ok (ts, stop)) :
    Scans offset cs ts ∧ stop = offset + cs.length := by
  induction offset, cs using scanFrom.induct generalizing ts with
  | case1 offset =>
      rw [scanFrom] at h
      cases h
      exact ⟨.done stop, rfl⟩
  | case2 offset c cs hc ih =>
      rw [scanFrom, if_pos hc] at h
      obtain ⟨hscans, hstop⟩ := ih h
      exact ⟨.blank hc hscans, by rw [hstop, List.length_cons]; omega⟩
  | case3 offset c cs hc problem hp =>
      rw [scanFrom, if_neg hc, hp] at h
      cases h
  | case4 offset c cs hc x n hx ih =>
      rw [scanFrom, if_neg hc, hx] at h
      dsimp only at h
      obtain ⟨⟨us, stop⟩, hus, heq⟩ := map_eq_ok_iff.mp h
      obtain ⟨text, rest, hcs, htext, hrest, rfl⟩ := readLexeme_eq_ok_iff.mp hx
      have hdrop : cs.drop (text.length - 1) = rest := drop_of_writtenAs htext hcs
      rw [hdrop] at ih hus
      cases heq
      obtain ⟨hscans, hstop⟩ := ih hus
      rw [hcs, hstop, List.length_append, Nat.add_assoc]
      exact ⟨.token htext hrest hscans, rfl⟩

theorem scanFrom_of_scans (h : Scans offset cs ts) :
    scanFrom offset cs = .ok (ts, offset + cs.length) := by
  induction h with
  | done offset => rw [scanFrom, List.length_nil, Nat.add_zero]
  | blank hc _ ih => rw [scanFrom, if_pos hc, ih, List.length_cons, Nat.add_assoc, Nat.add_comm 1]
  | @token offset x text rest ts htext hrest _ ih =>
      obtain ⟨c, cs, rfl, hblank, hread⟩ := readLexeme_of_writtenAs htext hrest
      have hdrop : (cs ++ rest).drop ((c :: cs).length - 1) = rest := by simp
      rw [List.cons_append, scanFrom, hblank, if_neg Bool.false_ne_true, hread]
      dsimp only
      rw [hdrop, ih, ← List.cons_append, List.length_append, Nat.add_assoc]
      rfl

theorem scan_eq_ok_iff {source : List Char} {stop : Nat} :
    scan source = .ok (ts, stop) ↔ Scans 0 source ts ∧ stop = source.length := by
  constructor
  · intro h
    have ⟨hscans, hstop⟩ := scans_of_scanFrom h
    exact ⟨hscans, hstop.trans (Nat.zero_add _)⟩
  · rintro ⟨hscans, rfl⟩
    rw [scan, scanFrom_of_scans hscans, Nat.zero_add]

/-- The last position of a text that has tokens is its length. -/
theorem scan_of_tokens {source : List Char} (h : tokens source = .ok ts) :
    scan source = .ok (ts, source.length) := by
  obtain ⟨⟨ts, stop⟩, hscan, rfl⟩ := map_eq_ok_iff.mp h
  obtain ⟨-, rfl⟩ := scan_eq_ok_iff.mp hscan
  exact hscan

theorem scan_of_tokens_eq_error {source : List Char} {e : ExprError}
    (h : tokens source = .error e) : scan source = .error e := by
  rw [tokens] at h
  cases hscan : scan source with
  | ok p =>
      rw [hscan] at h
      cases h
  | error e' =>
      rw [hscan] at h
      cases h
      rfl

theorem tokens_eq_ok_iff {source : List Char} : tokens source = .ok ts ↔ Scans 0 source ts := by
  constructor
  · intro h
    exact (scan_eq_ok_iff.mp (scan_of_tokens h)).1
  · intro h
    rw [tokens, scan_eq_ok_iff.mpr ⟨h, rfl⟩]
    rfl

/-- The lexer fails behind tokens, where what is left cannot be read. -/
theorem unreadable_of_scanFrom {e : ExprError} (h : scanFrom offset cs = .error e) :
    ∃ before after ts, cs = before ++ after ∧ e.offset = offset + before.length ∧
      Scans offset before ts ∧ Unreadable after e.problem := by
  induction offset, cs using scanFrom.induct with
  | case1 offset =>
      rw [scanFrom] at h
      cases h
  | case2 offset c cs hc ih =>
      rw [scanFrom, if_pos hc] at h
      obtain ⟨before, after, ts, rfl, hoffset, hscans, hproblem⟩ := ih h
      exact ⟨c :: before, after, ts, rfl, by rw [hoffset, List.length_cons]; omega,
        .blank hc hscans, hproblem⟩
  | case3 offset c cs hc problem hp =>
      rw [scanFrom, if_neg hc, hp] at h
      cases h
      exact ⟨[], c :: cs, [], rfl, rfl, .done offset,
        unreadable_of_readLexeme (by simpa using hc) hp⟩
  | case4 offset c cs hc x n hx ih =>
      rw [scanFrom, if_neg hc, hx] at h
      dsimp only at h
      obtain ⟨text, rest, hcs, htext, hrest, rfl⟩ := readLexeme_eq_ok_iff.mp hx
      have hdrop : cs.drop (text.length - 1) = rest := drop_of_writtenAs htext hcs
      rw [hdrop] at ih h
      cases hmore : scanFrom (offset + text.length) rest with
      | ok ts =>
          rw [hmore] at h
          cases h
      | error e' =>
          rw [hmore] at h
          cases h
          obtain ⟨before, after, ts, rfl, hoffset, hscans, hproblem⟩ := ih hmore
          refine ⟨text ++ before, after, ⟨x, offset, text.length⟩ :: ts,
            by rw [hcs, List.append_assoc], ?_, .token htext hrest.of_append hscans, hproblem⟩
          rw [hoffset, List.length_append, Nat.add_assoc]

end

end Lexer

/-! ### Tokens and their texts -/

/-- The characters that a token takes. -/
def Token.slice (t : Token) (source : List Char) : List Char := (source.drop t.offset).take t.length

/-- The character at an offset belongs to a token. -/
def Token.Covers (t : Token) (offset : Nat) : Prop :=
  t.offset ≤ offset ∧ offset < t.offset + t.length

/-- A string has the value that a literal stands for between its quotes; any other
lexeme has the text itself. -/
def Lexeme.IsValueOf (text : List Char) : Lexeme → Prop
  | .string value => ∃ quote body, Lexer.IsQuote quote ∧ Lexer.Interior quote body ∧
      text = quote :: (body ++ [quote]) ∧
      value.toList = Lexer.unescapeAll body
  | x => text = x.text.toList

theorem Lexeme.WrittenAs.isValueOf {x : Lexeme} {text : List Char} (h : x.WrittenAs text) :
    x.IsValueOf text := by
  cases h with
  | string hquote hbody => exact ⟨_, _, hquote, hbody, rfl, String.toList_ofList⟩
  | integer _ _ | float _ _ _ _ | name _ _ _ => exact String.toList_ofList.symm
  | keyword word => rfl
  | symbol sign => rfl

namespace Lexer

theorem Scans.stands {offset : Nat} {cs : List Char} {ts : List Token} (h : Scans offset cs ts)
    {t : Token} (ht : t ∈ ts) :
      ∃ before text after, cs = before ++ (text ++ after) ∧ t.offset = offset + before.length ∧
      t.length = text.length ∧ t.lexeme.WrittenAs text := by
  induction h with
  | done => cases ht
  | @blank offset c _ _ _ _ ih =>
      obtain ⟨before, text, after, rfl, hoffset, hlength, htext⟩ := ih ht
      exact ⟨c :: before, text, after, rfl, by rw [hoffset, List.length_cons]; omega,
        hlength, htext⟩
  | @token offset x text rest _ htext _ _ ih =>
      obtain rfl | ht := List.mem_cons.mp ht
      · exact ⟨[], text, rest, rfl, rfl, rfl, htext⟩
      · obtain ⟨before, text', after, rfl, hoffset, hlength, htext'⟩ := ih ht
        exact ⟨text ++ before, text', after, (List.append_assoc ..).symm,
          by rw [hoffset, List.length_append]; omega, hlength, htext'⟩

theorem Scans.apart {offset : Nat} {cs : List Char} {ts : List Token} (h : Scans offset cs ts) :
    ts.Pairwise fun t u => t.offset + t.length ≤ u.offset := by
  induction h with
  | done => exact .nil
  | blank _ _ ih => exact ih
  | token _ _ hmore ih =>
      refine .cons (fun u hu => ?_) ih
      obtain ⟨before, _, _, _, hoffset, _⟩ := hmore.stands hu
      exact hoffset ▸ Nat.le_add_right _ _

theorem Scans.blank_of_not_covers {offset : Nat} {cs : List Char} {ts : List Token}
    (h : Scans offset cs ts) {k : Nat} {c : Char} (hc : cs[k]? = some c)
    (outside : ∀ t ∈ ts, ¬ t.Covers (offset + k)) : isBlank c := by
  induction h generalizing k with
  | done => simp at hc
  | blank hblank _ ih =>
      cases k with
      | zero =>
          obtain rfl := Option.some.inj hc
          exact hblank
      | succ k =>
          refine ih hc fun t ht hcovers => outside t ht ?_
          rwa [Nat.add_right_comm] at hcovers
  | @token offset x text rest ts htext _ _ ih =>
      rw [List.forall_mem_cons] at outside
      have hk : text.length ≤ k := by
        by_contra hlt
        exact outside.1 ⟨by simp, by simpa using Nat.not_le.mp hlt⟩
      obtain ⟨k, rfl⟩ := Nat.exists_eq_add_of_le hk
      rw [List.getElem?_append_right (by omega), Nat.add_sub_cancel_left] at hc
      rw [← Nat.add_assoc] at outside
      exact ih hc outside.2

theorem Scans.length_le {offset : Nat} {cs : List Char} {ts : List Token} (h : Scans offset cs ts) :
    ts.length ≤ cs.length := by
  induction h with
  | done => exact Nat.le_refl 0
  | blank _ _ ih => exact Nat.le_succ_of_le ih
  | @token _ x text rest _ htext _ _ ih =>
      obtain ⟨c, cs, rfl, -, -⟩ := readLexeme_of_writtenAs htext x.endsBefore_nil
      simp only [List.length_cons, List.length_append]
      omega

theorem Scans.single {x : Lexeme} {text : List Char} (h : x.WrittenAs text) :
    Scans 0 text [⟨x, 0, text.length⟩] := by
  have hscans : Scans 0 (text ++ []) [⟨x, 0, text.length⟩] := .token h x.endsBefore_nil (.done _)
  rwa [List.append_nil] at hscans

end Lexer

/-! ### All of a text -/

/-- The tokens of a text, in order and apart from each other, with nothing but blanks between them.
Each one has the value of the text where it stands, and alone this text is the same token again. -/
structure Lexer.Lossless (source : List Char) (ts : List Token) : Prop where
  positive : ∀ t ∈ ts, 1 ≤ t.length
  apart : ts.Pairwise fun t u => t.offset + t.length ≤ u.offset
  inside : ∀ t ∈ ts, t.offset + t.length ≤ source.length
  blank : ∀ offset c, source[offset]? = some c → (∀ t ∈ ts, ¬ t.Covers offset) → isBlank c
  value : ∀ t ∈ ts, t.lexeme.IsValueOf (t.slice source)
  alone : ∀ t ∈ ts, marked (t.slice source) = .ok [⟨some t.lexeme, 0, t.length⟩, .stop t.length]

namespace Lexer

theorem marked_of_scans {source : List Char} {ts : List Token} (h : Scans 0 source ts) :
    marked source = .ok (ts.map Token.mark ++ [.stop source.length]) := by
  rw [marked, scan_eq_ok_iff.mpr ⟨h, rfl⟩]
  rfl

theorem Scans.lossless {source : List Char} {ts : List Token} (h : Scans 0 source ts) :
    Lossless source ts := by
  have stands : ∀ t ∈ ts, t.offset + t.length ≤ source.length ∧ (t.slice source).length = t.length ∧
      t.lexeme.WrittenAs (t.slice source) := by
    intro t ht
    obtain ⟨before, text, after, rfl, hoffset, hlength, htext⟩ := h.stands ht
    have hslice : t.slice (before ++ (text ++ after)) = text := by
      rw [Token.slice, hoffset, hlength, Nat.zero_add, List.drop_left, List.take_left]
    rw [hslice]
    exact ⟨by simp; omega, hlength.symm, htext⟩
  refine ⟨fun t ht => ?_, h.apart, fun t ht => (stands t ht).1, fun offset c hc outside => ?_,
    fun t ht => (stands t ht).2.2.isValueOf, fun t ht => ?_⟩
  · obtain ⟨-, hlength, htext⟩ := stands t ht
    obtain ⟨c, cs, hslice, -, -⟩ := readLexeme_of_writtenAs htext t.lexeme.endsBefore_nil
    rw [← hlength, hslice]
    exact Nat.succ_pos _
  · exact h.blank_of_not_covers hc (by simpa using outside)
  · obtain ⟨-, hlength, htext⟩ := stands t ht
    rw [marked_of_scans (.single htext), hlength]
    rfl

/-- A text has tokens that stand for all of it but for blanks, up to the end mark; or, behind a part
that has tokens, there is a quote that is not closed or a character that begins no token. -/
theorem marked_lossless (source : List Char) :
    match marked source with
    | .ok marks => ∃ ts : List Token, marks = ts.map Token.mark ++ [⟨none, source.length, 0⟩] ∧
        Lossless source ts
    | .error e => (∃ marks, marked (source.take e.offset) = .ok marks) ∧
        Unreadable (source.drop e.offset) e.problem := by
  cases hscan : scan source with
  | ok p =>
      obtain ⟨hscans, -⟩ := scan_eq_ok_iff.mp hscan
      rw [marked_of_scans hscans]
      exact ⟨p.1, rfl, hscans.lossless⟩
  | error e =>
      obtain ⟨before, after, ts, rfl, hoffset, hscans, hproblem⟩ := unreadable_of_scanFrom hscan
      rw [Nat.zero_add] at hoffset
      rw [marked, hscan]
      change (∃ marks, marked ((before ++ after).take e.offset) = .ok marks) ∧
        Unreadable ((before ++ after).drop e.offset) e.problem
      rw [hoffset, List.take_left, List.drop_left]
      exact ⟨⟨_, marked_of_scans hscans⟩, hproblem⟩

end Lexer

end UiMarkup
