import UiMarkup.Text.CodeSet

/-!
Cutting text: trimming, words, pieces between separators and the pieces' joining, and lines.
-/

namespace UiMarkup.Text

/-- Drops the characters of a class at the right end. -/
def trimRightBy (p : Char → Bool) (cs : List Char) : List Char :=
  cs.reverse.dropWhile p |>.reverse

/-- Drops the characters of a class at both ends. -/
def trimBy (p : Char → Bool) (cs : List Char) : List Char :=
  trimRightBy p (cs.dropWhile p)

def trim (cs : List Char) : List Char := trimBy isBlank cs

/-- Puts a character in front of the first piece. -/
def consFirst (c : Char) : List (List Char) → List (List Char)
  | [] => [[c]]
  | p :: ps => (c :: p) :: ps

/-- The pieces between the characters of a class, empty ones included; there is at least one. -/
def piecesBy (sep : Char → Bool) : List Char → List (List Char)
  | [] => [[]]
  | c :: cs => if sep c then [] :: piecesBy sep cs else consFirst c (piecesBy sep cs)

/-- The pieces between the occurrences of one character. -/
def pieces (sep : Char) (cs : List Char) : List (List Char) := piecesBy (· == sep) cs

/-- The non-empty pieces between blanks. -/
def words (cs : List Char) : List (List Char) := (piecesBy isBlank cs).filter (!·.isEmpty)

/-- What stands before and after the first occurrence of a character. -/
def cut? (sep : Char) : List Char → Option (List Char × List Char)
  | [] => none
  | c :: cs => if c = sep then some ([], cs) else (cut? sep cs).map fun (a, b) => (c :: a, b)

/-- What stands before and after the last occurrence of a character. -/
def cutLast? (sep : Char) (cs : List Char) : Option (List Char × List Char) :=
  (cut? sep cs.reverse).map fun (a, b) => (b.reverse, a.reverse)

/-- Joins pieces with a separator text between them. -/
def joinWith (sep : List Char) : List (List Char) → List Char
  | [] => []
  | [p] => p
  | p :: ps => p ++ sep ++ joinWith sep ps

/-- The text less a last part that it must end in. -/
def dropSuffix? (suffix cs : List Char) : Option (List Char) :=
  if suffix.isSuffixOf cs then some (cs.take (cs.length - suffix.length)) else none

/-- A line ends at a line feed, a carriage return, the two together, or one of the other line
boundaries of Unicode. -/
def isLineEnd (c : Char) : Bool :=
  c ∈ ['\n', '\r', '\x0b', '\x0c', '\x1c', '\x1d', '\x1e', '\x85', '\u2028', '\u2029']

/-- The lines as an editor shows them. A last line that is empty does not count. -/
def lines : List Char → List (List Char)
  | [] => []
  | '\r' :: '\n' :: cs => [] :: lines cs
  | c :: cs => if isLineEnd c then [] :: lines cs else consFirst c (lines cs)

theorem piecesBy_ne_nil (sep : Char → Bool) (cs : List Char) : piecesBy sep cs ≠ [] := by
  cases cs with
  | nil => simp [piecesBy]
  | cons c cs =>
    simp only [piecesBy]
    split
    · simp
    · cases piecesBy sep cs <;> simp [consFirst]

theorem eq_append_of_cut? {sep : Char} {cs a b : List Char} (h : cut? sep cs = some (a, b)) :
    cs = a ++ sep :: b ∧ sep ∉ a := by
  induction cs generalizing a with
  | nil => simp [cut?] at h
  | cons c cs ih =>
    by_cases hc : c = sep
    · simp only [cut?, hc, if_true, Option.some.injEq, Prod.mk.injEq] at h
      obtain ⟨rfl, rfl⟩ := h
      simp [hc]
    · simp only [cut?, hc, if_false, Option.map_eq_some_iff] at h
      obtain ⟨⟨a', b'⟩, hab, heq⟩ := h
      simp only [Prod.mk.injEq] at heq
      obtain ⟨rfl, rfl⟩ := heq
      obtain ⟨rfl, hn⟩ := ih hab
      simp [hn, Ne.symm hc]

theorem cut?_append {sep : Char} {a : List Char} (h : sep ∉ a) (b : List Char) :
    cut? sep (a ++ sep :: b) = some (a, b) := by
  induction a with
  | nil => simp [cut?]
  | cons c a ih =>
    simp only [List.mem_cons, not_or] at h
    simp [cut?, Ne.symm h.1, ih h.2]

theorem cutLast?_append {sep : Char} (a : List Char) {b : List Char} (h : sep ∉ b) :
    cutLast? sep (a ++ sep :: b) = some (a, b) := by
  have hreverse : (a ++ sep :: b).reverse = b.reverse ++ sep :: a.reverse := by simp
  rw [cutLast?, hreverse, cut?_append (by simpa using h)]
  simp

theorem cut?_eq_none_iff {sep : Char} {cs : List Char} : cut? sep cs = none ↔ sep ∉ cs := by
  induction cs with
  | nil => simp [cut?]
  | cons c cs ih =>
    by_cases hc : c = sep
    · simp [cut?, hc]
    · simp [cut?, hc, ih, Ne.symm hc]

theorem pieces_of_not_mem {sep : Char} {cs : List Char} (h : sep ∉ cs) : pieces sep cs = [cs] := by
  induction cs with
  | nil => rfl
  | cons c cs ih =>
    simp only [List.mem_cons, not_or] at h
    have hsame : (c == sep) = false := by simpa using Ne.symm h.1
    rw [pieces] at ih ⊢
    rw [piecesBy, hsame, ih h.2]
    rfl

theorem pieces_append {sep : Char} {a : List Char} (h : sep ∉ a) (b : List Char) :
    pieces sep (a ++ sep :: b) = a :: pieces sep b := by
  rw [pieces, pieces]
  induction a with
  | nil => simp [piecesBy]
  | cons c a ih =>
    simp only [List.mem_cons, not_or] at h
    rw [List.cons_append, piecesBy, ih h.2]
    simp [Ne.symm h.1, consFirst]

/-- Pieces with one character between them are found again. -/
theorem pieces_intercalate {sep : Char} {ps : List (List Char)} (hne : ps ≠ [])
    (h : ∀ p ∈ ps, sep ∉ p) : pieces sep ([sep].intercalate ps) = ps := by
  induction ps with
  | nil => exact absurd rfl hne
  | cons p ps ih =>
    obtain ⟨hp, hps⟩ := List.forall_mem_cons.mp h
    cases ps with
    | nil =>
      rw [List.intercalate_singleton]
      exact pieces_of_not_mem hp
    | cons q qs =>
      rw [List.intercalate_cons_cons, List.append_assoc, List.singleton_append, pieces_append hp,
        ih (List.cons_ne_nil q qs) hps]

/-- A text has two pieces exactly when the separator occurs in it once. -/
theorem pieces_eq_pair_iff {sep : Char} {cs a b : List Char} :
    pieces sep cs = [a, b] ↔ cs = a ++ sep :: b ∧ sep ∉ a ∧ sep ∉ b := by
  constructor
  · intro h
    cases hcut : cut? sep cs with
    | none => simp [pieces_of_not_mem (cut?_eq_none_iff.mp hcut)] at h
    | some parts =>
      obtain ⟨first, rest⟩ := parts
      obtain ⟨rfl, ha⟩ := eq_append_of_cut? hcut
      rw [pieces_append ha, List.cons.injEq] at h
      obtain ⟨rfl, h⟩ := h
      cases hrest : cut? sep rest with
      | none =>
        have hb := cut?_eq_none_iff.mp hrest
        rw [pieces_of_not_mem hb, List.cons.injEq] at h
        obtain ⟨rfl, -⟩ := h
        exact ⟨rfl, ha, hb⟩
      | some parts =>
        obtain ⟨rfl, hp⟩ := eq_append_of_cut? hrest
        rw [pieces_append hp, List.cons.injEq] at h
        exact absurd h.2 (piecesBy_ne_nil _ _)
  · rintro ⟨rfl, ha, hb⟩
    rw [pieces_append ha, pieces_of_not_mem hb]

theorem dropSuffix?_eq_some_iff {suffix cs rest : List Char} :
    dropSuffix? suffix cs = some rest ↔ cs = rest ++ suffix := by
  rw [dropSuffix?]
  constructor
  · intro h
    split at h
    · rename_i hs
      obtain ⟨t, rfl⟩ := List.isSuffixOf_iff_suffix.mp hs
      simpa using h
    · cases h
  · rintro rfl
    simp [List.isSuffixOf_iff_suffix]

section

variable {α : Type} {p : α → Bool} {cs rest : List α}

/-- The members of a class, up to one that is not of it. -/
theorem takeWhile_append_of_head (hcs : ∀ c ∈ cs, p c) (hrest : ∀ d ∈ rest.head?, p d = false) :
    (cs ++ rest).takeWhile p = cs := by
  rw [List.takeWhile_append_of_pos hcs]
  cases rest with
  | nil => exact List.append_nil cs
  | cons d rest => simp [hrest d rfl]

theorem dropWhile_append_of_head (hcs : ∀ c ∈ cs, p c) (hrest : ∀ d ∈ rest.head?, p d = false) :
    (cs ++ rest).dropWhile p = rest := by
  rw [List.dropWhile_append_of_pos hcs]
  cases rest with
  | nil => rfl
  | cons d rest => simp [hrest d rfl]

end

/-- No character of the class ends a trimmed text. -/
theorem getLast?_trimBy {p : Char → Bool} {cs : List Char} {c : Char}
    (h : c ∈ (trimBy p cs).getLast?) : p c = false := by
  rw [trimBy, trimRightBy, List.getLast?_reverse] at h
  have hfirst := List.head?_dropWhile_not p (cs.dropWhile p).reverse
  rw [Option.mem_def.mp h] at hfirst
  simpa using hfirst

end UiMarkup.Text
