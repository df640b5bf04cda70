import UiMarkup.Proofs.Number.Margins
import UiMarkup.Proofs.Text.Utf8
import UiMarkup.Text.Split

/-!
The lines of a source and the lines that an editor shows. Those of a source end at line feeds
alone. An editor may show one of them as several lines, never several as one, so that its lines lag
behind those of the source.
-/

namespace UiMarkup

namespace Text

/-! ### Lines of an editor -/

theorem lines_cons {c : Char} {cs : List Char} (h : c = '\r' → cs.head? ≠ some '\n') :
    lines (c :: cs) = if isLineEnd c then [] :: lines cs else consFirst c (lines cs) :=
  lines.eq_3 c cs fun rest hc hcs => h hc (by rw [hcs]; rfl)

theorem consFirst_ne_nil (c : Char) (ps : List (List Char)) : consFirst c ps ≠ [] := by
  cases ps <;> simp [consFirst]

theorem lines_ne_nil {cs : List Char} (h : cs ≠ []) : lines cs ≠ [] := by
  fun_cases lines cs with
  | case1 => exact absurd rfl h
  | case2 cs => exact List.cons_ne_nil _ _
  | case3 c cs hc hend => exact List.cons_ne_nil _ _
  | case4 c cs hc hend => exact consFirst_ne_nil _ _

theorem consFirst_append (c : Char) {ps : List (List Char)} (h : ps ≠ []) (qs : List (List Char)) :
    consFirst c (ps ++ qs) = consFirst c ps ++ qs := by
  cases ps with
  | nil => exact absurd rfl h
  | cons p ps => rfl

theorem head?_append_ne {c : Char} {a : List Char} (h : ∀ rest, c = '\r' → a = '\n' :: rest → False)
    (hreturn : ¬ (c = '\r' ∧ a = [])) (more : List Char) :
    c = '\r' → (a ++ '\n' :: more).head? ≠ some '\n' := by
  rintro rfl
  cases a with
  | nil => exact absurd ⟨rfl, rfl⟩ hreturn
  | cons d a =>
      rintro ⟨⟩
      exact h a rfl rfl

/-- A line feed parts the lines before it from those behind it. -/
theorem lines_append_newline (a b : List Char) :
    lines (a ++ '\n' :: b) = lines (a ++ ['\n']) ++ lines b := by
  induction a using lines.induct with
  | case1 => rfl
  | case2 a ih => exact congrArg ([] :: ·) ih
  | case3 c a hc hend ih =>
      by_cases hreturn : c = '\r' ∧ a = []
      · obtain ⟨rfl, rfl⟩ := hreturn
        rfl
      · have hcons (more : List Char) :
            lines (c :: a ++ '\n' :: more) = [] :: lines (a ++ '\n' :: more) := by
          rw [List.cons_append, lines_cons (head?_append_ne hc hreturn more), if_pos hend]
        rw [hcons, hcons, ih, List.cons_append]
  | case4 c a hc hend ih =>
      have hreturn : ¬ (c = '\r' ∧ a = []) := by
        rintro ⟨rfl, -⟩
        exact hend rfl
      have hcons (more : List Char) : lines (c :: a ++ '\n' :: more) =
          consFirst c (lines (a ++ '\n' :: more)) := by
        rw [List.cons_append, lines_cons (head?_append_ne hc hreturn more), if_neg hend]
      rw [hcons, hcons, ih, consFirst_append c (lines_ne_nil (by simp))]

/-- A line is a part of the text; the first one is a beginning of it. -/
theorem lines_parts (cs : List Char) :
    (∀ l ∈ (lines cs).head?, l <+: cs) ∧ ∀ l ∈ lines cs, l <:+: cs := by
  induction cs using lines.induct with
  | case1 => exact ⟨by simp [lines], by simp [lines]⟩
  | case2 cs ih =>
      refine ⟨by simp [lines], fun l hl => ?_⟩
      obtain rfl | hl := List.mem_cons.mp hl
      · exact List.nil_infix
      · exact (ih.2 l hl).trans (List.suffix_append ['\r', '\n'] cs).isInfix
  | case3 c cs hc hend ih =>
      rw [lines.eq_3 c cs hc, if_pos hend]
      refine ⟨by simp, fun l hl => ?_⟩
      obtain rfl | hl := List.mem_cons.mp hl
      · exact List.nil_infix
      · exact (ih.2 l hl).trans (List.suffix_cons c cs).isInfix
  | case4 c cs hc hend ih =>
      rw [lines.eq_3 c cs hc, if_neg hend]
      cases hlines : lines cs with
      | nil =>
          have hfirst : [c] <+: c :: cs := List.cons_prefix_cons.mpr ⟨rfl, List.nil_prefix⟩
          exact ⟨by simp [consFirst], by simpa [consFirst] using hfirst.isInfix⟩
      | cons p ps =>
          rw [hlines] at ih
          have hfirst : c :: p <+: c :: cs := List.cons_prefix_cons.mpr ⟨rfl, ih.1 p rfl⟩
          refine ⟨by simpa [consFirst] using hfirst, fun l hl => ?_⟩
          obtain rfl | hl := List.mem_cons.mp hl
          · exact hfirst.isInfix
          · exact (ih.2 l (List.mem_cons_of_mem p hl)).trans (List.suffix_cons c cs).isInfix

theorem newline_notMem_of_mem_lines {l cs : List Char} (h : l ∈ lines cs) : '\n' ∉ l := by
  induction cs using lines.induct generalizing l with
  | case1 => cases h
  | case2 cs ih =>
      obtain rfl | h := List.mem_cons.mp h
      · exact List.not_mem_nil
      · exact ih h
  | case3 c cs hc hend ih =>
      rw [lines.eq_3 c cs hc, if_pos hend] at h
      obtain rfl | h := List.mem_cons.mp h
      · exact List.not_mem_nil
      · exact ih h
  | case4 c cs hc hend ih =>
      have hne : '\n' ≠ c := by
        rintro rfl
        exact hend rfl
      rw [lines.eq_3 c cs hc, if_neg hend] at h
      cases hlines : lines cs with
      | nil =>
          rw [hlines] at h
          obtain rfl := List.mem_singleton.mp h
          simpa using hne
      | cons p ps =>
          rw [hlines] at h ih
          obtain rfl | h := List.mem_cons.mp h
          · rw [List.mem_cons, not_or]
            exact ⟨hne, ih List.mem_cons_self⟩
          · exact ih (List.mem_cons_of_mem p h)

/-- The lines up to a line feed are parts of the text before it. -/
theorem infix_of_mem_lines_newline {l cs : List Char} (h : l ∈ lines (cs ++ ['\n'])) :
    l <:+: cs := by
  obtain ⟨before, after, hsplit⟩ := (lines_parts _).2 l h
  obtain rfl | ⟨after', d, rfl⟩ := after.eq_nil_or_concat'
  · obtain rfl | ⟨l', d, rfl⟩ := l.eq_nil_or_concat'
    · exact List.nil_infix
    · rw [List.append_nil, ← List.append_assoc] at hsplit
      obtain rfl := List.singleton_inj.mp (List.append_inj_right' hsplit rfl)
      exact absurd (List.mem_append_right l' (List.mem_singleton_self _))
        (newline_notMem_of_mem_lines h)
  · rw [← List.append_assoc] at hsplit
    exact ⟨before, after', List.append_inj_left' hsplit rfl⟩

/-- The text has no end of a line in it, but for a carriage return that may come last. -/
def Unbroken (cs : List Char) : Prop :=
  ∃ body, (cs = body ∨ cs = body ++ ['\r']) ∧ ∀ c ∈ body, isLineEnd c = false

theorem lines_append_of_forall {body rest p : List Char} {ps : List (List Char)}
    (h : ∀ c ∈ body, isLineEnd c = false) (hrest : lines rest = p :: ps) :
    lines (body ++ rest) = (body ++ p) :: ps := by
  induction body with
  | nil => exact hrest
  | cons c body ih =>
      obtain ⟨hc, hbody⟩ := List.forall_mem_cons.mp h
      have hreturn : c = '\r' → (body ++ rest).head? ≠ some '\n' := by
        rintro rfl
        cases hc
      rw [List.cons_append, lines_cons hreturn, hc, ih hbody]
      rfl

theorem trim_append {a b : List Char} (hb : ∀ c ∈ b, isBlank c) : trim (a ++ b) = trim a := by
  simp only [trim, trimBy, List.dropWhile_append]
  split
  · next hempty => rw [List.dropWhile_eq_nil_iff.mpr hb, List.isEmpty_iff.mp hempty]
  · exact trimRightBy_append hb

/-- Unbroken text is shown as one line, if a line feed ends it or else it is not empty. -/
theorem exists_lines_eq_of_unbroken {cs : List Char} (h : Unbroken cs) :
    ∃ l, trim l = trim cs ∧ lines (cs ++ ['\n']) = [l] ∧ (lines cs = [l] ∨ lines cs = []) := by
  obtain ⟨body, hcs, hbody⟩ := h
  have hended {rest : List Char} (hrest : lines rest = [[]]) : lines (body ++ rest) = [body] := by
    rw [lines_append_of_forall hbody hrest, List.append_nil]
  refine ⟨body, ?_⟩
  obtain rfl | rfl := hcs
  · refine ⟨rfl, hended rfl, ?_⟩
    obtain rfl | ⟨first, c, rfl⟩ := cs.eq_nil_or_concat'
    · exact .inr rfl
    · obtain ⟨hfirst, hc⟩ := List.forall_mem_append.mp hbody
      have hlast : lines [c] = [[c]] := by
        rw [lines_cons (by simp), hc c (List.mem_singleton_self c)]
        rfl
      exact .inl (lines_append_of_forall hfirst hlast)
  · have hboth : lines ['\r', '\n'] = [[]] := by rw [lines, lines]
    have hblank : isBlank '\r' := isBlank_of_isWhitespace rfl
    refine ⟨(trim_append (by simpa using hblank)).symm, ?_, .inl (hended rfl)⟩
    rw [List.append_assoc, List.singleton_append]
    exact hended hboth

/-! ### Lines of a source -/

/-- A text and the lines that its line feeds part it into. -/
inductive Lined : List Char → List (List Char) → Prop
  | last {a : List Char} (whole : '\n' ∉ a) : Lined a [a]
  | line {a b : List Char} {ls : List (List Char)} (whole : '\n' ∉ a) (more : Lined b ls) :
      Lined (a ++ '\n' :: b) (a :: ls)

namespace Lined

variable {text l : List Char} {sources : List (List Char)} {n : Nat}

/-- An editor shows a part of a line of the source, and has not come farther than to this line. -/
theorem exists_part (h : Lined text sources) (hl : (lines text)[n]? = some l) :
    ∃ k ≤ n, ∃ s, sources[k]? = some s ∧ l <:+: s := by
  induction h generalizing n with
  | last whole => exact ⟨0, n.zero_le, _, rfl, (lines_parts _).2 l (List.mem_of_getElem? hl)⟩
  | @line a b ls whole more ih =>
      have hpos : 0 < (lines (a ++ ['\n'])).length :=
        List.length_pos_iff.mpr (lines_ne_nil (by simp))
      rw [lines_append_newline] at hl
      by_cases hn : n < (lines (a ++ ['\n'])).length
      · rw [List.getElem?_append_left hn] at hl
        exact ⟨0, n.zero_le, a, rfl, infix_of_mem_lines_newline (List.mem_of_getElem? hl)⟩
      · rw [List.getElem?_append_right (by omega)] at hl
        obtain ⟨k, hk, s, hs, hpart⟩ := ih hl
        exact ⟨k + 1, by omega, s, hs, hpart⟩

/-- As long as the lines of the source are unbroken, an editor keeps up with them. -/
theorem trim_eq (h : Lined text sources) (hunbroken : ∀ s ∈ sources.take (n + 1), Unbroken s)
    (hl : (lines text)[n]? = some l) : ∃ s, sources[n]? = some s ∧ trim l = trim s := by
  induction h generalizing n with
  | @last a whole =>
      obtain ⟨l', htrim, -, hlines⟩ := exists_lines_eq_of_unbroken (hunbroken a (by simp))
      obtain hlines | hlines := hlines
      · rw [hlines, List.getElem?_singleton] at hl
        obtain ⟨rfl, rfl⟩ : n = 0 ∧ l' = l := by simpa using hl
        exact ⟨a, rfl, htrim⟩
      · simp [hlines] at hl
  | @line a b ls whole more ih =>
      obtain ⟨l', htrim, hlines, -⟩ := exists_lines_eq_of_unbroken (hunbroken a (by simp))
      rw [lines_append_newline, hlines, List.singleton_append] at hl
      cases n with
      | zero =>
          obtain rfl : l' = l := by simpa using hl
          exact ⟨a, rfl, htrim⟩
      | succ n =>
          rw [List.take_succ_cons] at hunbroken
          exact ih (fun s hs => hunbroken s (List.mem_cons_of_mem a hs)) hl

end Lined

end Text

namespace SourceMap

/-- The lines of a source, which its line feeds end. -/
def lines (m : SourceMap) : List (List Char) := (m.bytes.splitOn lineFeed).map Text.decodeUtf8

theorem lined (m : SourceMap) : Text.Lined (Text.decodeUtf8 m.bytes) m.lines := by
  obtain ⟨bytes⟩ := m
  induction hsize : bytes.length using Nat.strong_induction_on generalizing bytes with
  | h size ih =>
      by_cases hmem : lineFeed ∈ bytes
      · obtain ⟨a, b, rfl, ha⟩ := List.eq_append_cons_of_mem hmem
        have hlines : lines ⟨a ++ lineFeed :: b⟩ = Text.decodeUtf8 a :: lines ⟨b⟩ := by
          rw [lines, List.splitOn_append_cons_self, List.splitOn_eq_singleton ha]
          rfl
        rw [hlines, Text.decodeUtf8_append_lineFeed]
        refine .line (Text.lineFeed_notMem_decodeUtf8 ha) (ih b.length ?_ b rfl)
        rw [← hsize, List.length_append, List.length_cons]
        omega
      · rw [lines, List.splitOn_eq_singleton hmem]
        exact .last (Text.lineFeed_notMem_decodeUtf8 hmem)

end SourceMap
end UiMarkup
