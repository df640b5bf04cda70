import Mathlib
import UiMarkup.Proofs.Expr.Parse
import UiMarkup.Widget.Value

/-!
A value is literal text and groups in braces in exactly one way. Its groups decide whether the value
can be read at all, and then its segments are its parts.
-/

namespace UiMarkup

open Text

namespace Segment

/-- Some brace is opened in the text and one is closed behind it. -/
def HasGroup (text : List Char) : Prop :=
  ∃ a b c : List Char, text = a ++ '\x7b' :: (b ++ '\x7d' :: c)

/-- Literals are as long as they can be and groups as short: a group begins with the first
brace that is opened and ends with the next one that is closed, and the literal at the end
has no group left in it. -/
structure Canonical (segments : List Segment) : Prop where
  nonempty : ∀ text, .literal text ∈ segments → text ≠ []
  closed : ∀ inner, .group inner ∈ segments → '\x7d' ∉ inner
  opened :
    ∀ (a : List Segment) (text : List Char) (b : List Segment) (inner :
      List Char) (c : List Segment),
    segments = a ++ .literal text :: (b ++ .group inner :: c) → '\x7b' ∉ text
  apart : ∀ (a : List Segment) (text text' : List Char) (b : List Segment),
    segments ≠ a ++ .literal text :: .literal text' :: b
  last : ∀ (a : List Segment) (text : List Char), segments = a ++ [.literal text] → ¬ HasGroup text

/-! Canonical lists, segment by segment. -/

theorem Canonical.nil : Canonical [] := by
  constructor <;> simp

theorem Canonical.single {text : List Char} (hne : text ≠ []) (h : ¬ HasGroup text) :
    Canonical [.literal text] := by
  refine ⟨by simpa using hne, by simp, fun a t b i c heq => ?_, fun a t t' b heq =>
    ?_, fun a t heq => ?_⟩
  · cases a <;> simp at heq
  · cases a <;> simp at heq
  · cases a with
    | nil =>
        obtain rfl : text = t := by simpa using heq
        exact h
    | cons _ a => simp at heq

theorem Canonical.group {inner : List Char} {more : List Segment} (hclosed : '\x7d' ∉ inner)
    (h : Canonical more) : Canonical (.group inner :: more) := by
  refine ⟨by simpa using h.nonempty, ?_, fun a t b i c heq => ?_, fun a t t' b heq =>
    ?_, fun a t heq => ?_⟩
  · rintro t (_ | ⟨_, ht⟩)
    · exact hclosed
    · exact h.closed t ht
  · cases a with
    | nil => simp at heq
    | cons _ a => exact h.opened a t b i c (List.cons.inj heq).2
  · cases a with
    | nil => simp at heq
    | cons _ a => exact h.apart a t t' b (List.cons.inj heq).2
  · cases a with
    | nil => simp at heq
    | cons _ a => exact h.last a t (List.cons.inj heq).2

theorem Canonical.literal {text inner : List Char} {more : List Segment} (hne : text ≠ [])
    (hopened : '\x7b' ∉ text) (h : Canonical (.group inner :: more)) :
    Canonical (.literal text :: .group inner :: more) := by
  refine ⟨?_, by simpa using h.closed, fun a t b i c heq => ?_, fun a t t' b heq =>
    ?_, fun a t heq => ?_⟩
  · rintro t (_ | ⟨_, ht⟩)
    · exact hne
    · exact h.nonempty t ht
  · cases a with
    | nil =>
        obtain rfl : text = t := by simpa using (List.cons.inj heq).1
        exact hopened
    | cons _ a => exact h.opened a t b i c (List.cons.inj heq).2
  · cases a with
    | nil => simp at heq
    | cons _ a => exact h.apart a t t' b (List.cons.inj heq).2
  · cases a with
    | nil => simp at heq
    | cons _ a => exact h.last a t (List.cons.inj heq).2

theorem Canonical.tail {s : Segment} {more : List Segment} (h : Canonical (s :: more)) :
    Canonical more where
  nonempty t ht := h.nonempty t (List.mem_cons_of_mem _ ht)
  closed t ht := h.closed t (List.mem_cons_of_mem _ ht)
  opened a t b i c heq := h.opened (s :: a) t b i c (by rw [heq]; rfl)
  apart a t t' b heq := h.apart (s :: a) t t' b (by rw [heq]; rfl)
  last a t heq := h.last (s :: a) t (by rw [heq]; rfl)

/-! The scan. -/

/-- Behind the first brace that is opened, one is closed. -/
theorem HasGroup.closed {before after : List Char} (hb : '\x7b' ∉ before)
    (h : HasGroup (before ++ '\x7b' :: after)) : '\x7d' ∈ after := by
  obtain ⟨a, b, c, heq⟩ := h
  -- the group is opened at that brace or behind it, since no brace is opened before
  obtain ⟨d, ha, hd⟩ | ⟨d, hbefore, hd⟩ := List.append_eq_append_iff.mp heq
  · cases d with
    | nil => simp [(List.cons.inj hd).2]
    | cons _ d => simp [(List.cons.inj hd).2]
  · cases d with
    | nil => simp [← (List.cons.inj hd).2]
    | cons _ d =>
        obtain ⟨rfl, -⟩ := List.cons.inj hd
        exact absurd (by simp [hbefore]) hb

theorem split_of_not_hasGroup {value : List Char} (h : ¬ HasGroup value) :
    split value = literalIf value := by
  rw [split]
  split
  · rfl
  · rename_i before after hopen
    split
    · rfl
    · rename_i inner rest hclose
      obtain ⟨rfl, -⟩ := eq_append_of_cut? hopen
      obtain ⟨rfl, -⟩ := eq_append_of_cut? hclose
      exact absurd ⟨before, inner, rest, rfl⟩ h

theorem split_group {before inner : List Char} (hb : '\x7b' ∉ before) (hi : '\x7d' ∉ inner)
    (rest : List Char) :
    split (before ++ '\x7b' :: (inner ++ '\x7d' :: rest)) =
      literalIf before ++ .group inner :: split rest := by
  rw [split, cut?_append hb]
  dsimp only
  rw [cut?_append hi]

theorem source_literalIf (text : List Char) : (literalIf text).flatMap source = text := by
  cases text <;> simp [literalIf, source]

theorem canonical_literalIf {text : List Char} (h : ¬ HasGroup text) :
    Canonical (literalIf text) := by
  cases text with
  | nil => exact .nil
  | cons c cs => exact .single (by simp) h

theorem Canonical.literalIf_append {text inner : List Char} {more : List Segment}
    (h : '\x7b' ∉ text) (hmore : Canonical (.group inner :: more)) :
    Canonical (literalIf text ++ .group inner :: more) := by
  cases text with
  | nil => exact hmore
  | cons c cs => exact .literal (by simp) h hmore

/-- Nothing is lost, and the segments are the canonical ones. -/
theorem split_spec (value : List Char) :
    (split value).flatMap source = value ∧ Canonical (split value) := by
  fun_induction split value with
  | case1 value hopen =>
      refine ⟨source_literalIf value, canonical_literalIf ?_⟩
      rintro ⟨a, b, c, rfl⟩
      exact absurd (by simp) (cut?_eq_none_iff.mp hopen)
  | case2 value before after hopen hclose =>
      obtain ⟨rfl, hbefore⟩ := eq_append_of_cut? hopen
      exact ⟨source_literalIf _, canonical_literalIf fun h =>
        cut?_eq_none_iff.mp hclose (h.closed hbefore)⟩
  | case3 value before after hopen inner rest hclose ih =>
      obtain ⟨rfl, hbefore⟩ := eq_append_of_cut? hopen
      obtain ⟨rfl, hinner⟩ := eq_append_of_cut? hclose
      refine ⟨?_, .literalIf_append hbefore (.group hinner ih.2)⟩
      rw [List.flatMap_append, source_literalIf, List.flatMap_cons, ih.1]
      simp [source]

/-- The scan finds canonical segments again. -/
theorem split_source {segments : List Segment} (h : Canonical segments) :
    split (segments.flatMap source) = segments := by
  induction segments with
  | nil => exact split_of_not_hasGroup (by rintro ⟨a, b, c, heq⟩; simp at heq)
  | cons s more ih =>
      have hmore := ih h.tail
      cases s with
      | group inner =>
          have := split_group (List.not_mem_nil (a := '\x7b')) (h.closed inner (by simp))
            (more.flatMap source)
          rw [hmore] at this
          simpa [source, literalIf] using this
      | literal text =>
          have hne : text ≠ [] := h.nonempty text (by simp)
          -- a literal is the last segment or has a group behind it, and its braces
          -- are those allowed there
          match more, h, hmore with
          | [], h, _ =>
            simpa [source, literalIf, hne] using split_of_not_hasGroup (h.last [] text rfl)
          | .literal text' :: more, h, _ => exact absurd rfl (h.apart [] text text' more)
          | .group inner :: more, h, hmore =>
            have hinner : '\x7d' ∉ inner := h.closed inner (by simp)
            have hopened : '\x7b' ∉ text := h.opened [] text [] inner more rfl
            have hrest : split (more.flatMap source) = more := by
              have := split_group (List.not_mem_nil (a := '\x7b')) hinner (more.flatMap source)
              have hgroup : split ('\x7b' :: (inner ++ '\x7d' :: more.flatMap source)) =
                  .group inner :: more := by
                simpa [source] using hmore
              simpa [hgroup, literalIf] using this.symm
            have := split_group hopened hinner (more.flatMap source)
            rw [hrest] at this
            simpa [source, literalIf, hne] using this

theorem existsUnique_canonical (value : List Char) :
    ∃! segments, Canonical segments ∧ segments.flatMap source = value := by
  refine ⟨split value, ⟨(split_spec value).2, (split_spec value).1⟩, ?_⟩
  rintro segments ⟨h, rfl⟩
  exact (split_source h).symm

end Segment
end UiMarkup
