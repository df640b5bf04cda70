import UiMarkup.Proofs.Number.Comparison
import UiMarkup.Proofs.Theme.FontSizes
import UiMarkup.Theme.Markup

/-!
Ranges of the numbers of valid themes. The check of a theme refuses what is out of range, by
comparisons; what is no number is in no range and is not refused. So a number of a valid theme is in
its range as far as both sides of the comparison are numbers, and no further.
-/

namespace UiMarkup

open Number

namespace Typography

variable {t : Typography} {low high base x : Float}

theorem range_of_not_lt (hlow : low.isNaN = false) (hhigh : high.isNaN = false) (hx : ¬ x < low)
    (hy : ¬ high < x) : low ≤ x ∧ x ≤ high ↔ x.isNaN = false := by
  rw [le_iff_of_not_lt hx, le_iff_of_not_lt hy, hlow, hhigh]
  simp only [and_true, true_and, and_self]

theorem range_of_baseProblems (h : baseProblems x = []) : 8 ≤ x ∧ x ≤ 32 ↔ x.isNaN = false := by
  rw [baseProblems] at h
  split at h
  · cases h
  split at h
  · cases h
  split at h
  · cases h
  rename_i hlow hhigh
  exact range_of_not_lt (by decide) (by decide) hlow hhigh

theorem range_of_heightProblems (h : heightProblems x = []) :
    1.0 ≤ x ∧ x ≤ 2.5 ↔ x.isNaN = false := by
  rw [heightProblems] at h
  split at h
  · cases h
  split at h
  · cases h
  split at h
  · cases h
  rename_i hlow hhigh
  exact range_of_not_lt (by decide) (by decide) hlow hhigh

theorem positive_of_not_le (h : ¬ x ≤ 0) : 0 < x ↔ x.isNaN = false := by
  have hzero : (0 : Float).isNaN = false := by decide
  rw [lt_iff_of_not_le h, hzero]
  simp only [and_true]

end Typography

namespace Theme

open Typography

theorem numbers_of_errors_eq_nil {t : Theme} (h : t.errors = []) :
    t.typography.problems = [] ∧ ∀ x, t.spacing = some x → ¬ x ≤ 0 := by
  have hproblems : t.problems = [] := List.map_eq_nil_iff.mp h
  simp only [problems, List.append_eq_nil_iff] at hproblems
  obtain ⟨⟨⟨_, htypography⟩, hspacing⟩, _⟩ := hproblems
  constructor
  · simpa using htypography
  · intro x hx hle
    simp [hx, hle] at hspacing

/-- A theme that has a parent and sets numbers only. -/
theorem errors_of_numbers {t : Theme} (hparent : t.parent.isSome) (hpalette : t.palette = .empty)
    (hstyles : t.baseStyles = []) (htypography : t.typography.problems = [])
    (hspacing : ∀ x, t.spacing = some x → ¬ x ≤ 0) : t.errors = [] := by
  have hcolors (role : PaletteColor) : t.colorErrors role = [] := by
    rw [colorErrors, hpalette]
    rfl
  have hbase : t.baseStyleErrors = [] := by
    rw [baseStyleErrors, hstyles]
    simp
  rw [errors, problems, hbase, htypography]
  cases hunit : t.spacing with
  | none => simp [hparent, hcolors]
  | some unit => simp [hparent, hcolors, hspacing unit hunit]

/-- The numbers of a theme without errors: each range that is asked for holds of a value that is set
if, and only if, the values in it are numbers. -/
theorem range_iff_of_errors_eq_nil {t : Theme} {base : Float} (valid : t.errors = [])
    (hbase : t.typography.sizeBase.getD defaultBase = base) :
    (∀ x, t.typography.sizeBase = some x → (8 ≤ x ∧ x ≤ 32 ↔ x.isNaN = false)) ∧
    (∀ x, t.typography.sizeSmall = some x →
      (0 < x ↔ x.isNaN = false) ∧ (x < base ↔ x.isNaN = false ∧ base.isNaN = false)) ∧
    (∀ x, t.typography.sizeLarge = some x →
      (0 < x ↔ x.isNaN = false) ∧ (base < x ↔ x.isNaN = false ∧ base.isNaN = false)) ∧
    (∀ x, t.typography.lineHeight = some x → (1.0 ≤ x ∧ x ≤ 2.5 ↔ x.isNaN = false)) ∧
    ∀ x, t.spacing = some x → (0 < x ↔ x.isNaN = false) := by
  subst hbase
  have hnumbers := numbers_of_errors_eq_nil valid
  have ⟨hrange, hfit⟩ := (problems_eq_nil_iff _).mp hnumbers.1
  refine ⟨?base, ?small, ?large, ?height, ?spacing⟩
  case base =>
    intro x hx
    exact range_of_baseProblems (hrange.base x hx)
  case small =>
    intro x hx
    have hmisfit := fun hle => hfit _ x (.small hx hle)
    exact ⟨positive_of_not_le (hrange.small x hx), (lt_iff_of_not_le hmisfit).trans and_comm⟩
  case large =>
    intro x hx
    have hmisfit := fun hle => hfit _ x (.large hx hle)
    exact ⟨positive_of_not_le (hrange.large x hx), lt_iff_of_not_le hmisfit⟩
  case height =>
    intro x hx
    exact range_of_heightProblems (hrange.height x hx)
  case spacing =>
    intro x hx
    exact positive_of_not_le (hnumbers.2 x hx)

/-- A theme for print with no number for a line height. -/
def print : Theme where
  name := "print"
  typography :=
    { sizeBase := some 20, sizeSmall := some 12, sizeLarge := some 28,
      lineHeight := some notANumber }
  spacing := some 4
  parent := some "plain"

theorem range_of_print : print.errors = [] ∧ ((8 : Float) ≤ 20 ∧ (20 : Float) ≤ 32) ∧
    (12 : Float) < 20 ∧
    (20 : Float) < 28 ∧ ¬ (1.0 ≤ notANumber ∧ notANumber ≤ 2.5) ∧ (0 : Float) < 4 := by
  have valid : print.errors = [] := errors_of_numbers rfl rfl rfl rfl fun x hx => by
    obtain rfl := Option.some.inj hx
    decide
  have ⟨hbase, hsmall, hlarge, hheight, hspacing⟩ := range_iff_of_errors_eq_nil valid rfl
  refine ⟨valid, (hbase 20 rfl).mpr (by decide), (hsmall 12 rfl).2.mpr (by decide),
    (hlarge 28 rfl).2.mpr (by decide), ?_, (hspacing 4 rfl).mpr (by decide)⟩
  rw [hheight notANumber rfl]
  decide

/-- A theme whose base size is no number. -/
def unsized : Element where
  tag := "theme"
  attributes := [⟨"name", "a", .origin⟩, ⟨"extends", "b", .origin⟩]
  children := [⟨"typography", [⟨"font_size_base", "nan", .origin⟩], [], .origin⟩]
  span := .origin

/-- The check of a theme lets a base size pass that is in no range. -/
theorem exists_errors_eq_nil_unsized : ∃ t x, ofElement unsized = .ok t ∧ t.errors = [] ∧
    t.typography.sizeBase = some x ∧ ¬ (8 ≤ x ∧ x ≤ 32) :=
  ⟨_, _, by cbv, errors_of_numbers rfl rfl rfl rfl (by simp), rfl, by decide +kernel⟩

end Theme
end UiMarkup
