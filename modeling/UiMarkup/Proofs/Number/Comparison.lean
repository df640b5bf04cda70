import Mathlib
import UiMarkup.Number.Binary64

/-!
Comparisons of binary64 numbers. The numbers are in a linear order, by their rank; what is no number
fails every comparison, so a comparison that fails says the opposite only of two numbers.
-/

namespace UiMarkup.Number

open Float.Model (UnpackedFloat)

theorem compare_neg_neg (i j : ℤ) : compare (-i) (-j) = compare j i := by
  obtain h | rfl | h := lt_trichotomy i j
  · rw [compare_gt_iff_gt.mpr (Int.neg_lt_neg h), compare_gt_iff_gt.mpr h]
  · rw [compare_eq_iff_eq.mpr rfl, compare_eq_iff_eq.mpr rfl]
  · rw [compare_lt_iff_lt.mpr (Int.neg_lt_neg h), compare_lt_iff_lt.mpr h]

theorem compare_cast (m n : ℕ) : compare (m : ℤ) n = compare m n := by
  obtain h | rfl | h := lt_trichotomy m n
  · rw [compare_lt_iff_lt.mpr h, compare_lt_iff_lt.mpr (Int.ofNat_lt.mpr h)]
  · rw [compare_eq_iff_eq.mpr rfl, compare_eq_iff_eq.mpr rfl]
  · rw [compare_gt_iff_gt.mpr h, compare_gt_iff_gt.mpr (Int.ofNat_lt.mpr h)]

/-- Where a number stands among all numbers: by its kind and sign, then its
exponent, then its mantissa. -/
def unpackedRank : UnpackedFloat → ℤ ×ₗ ℤ ×ₗ ℤ
  | .infinity .negative => toLex (-2, toLex (0, 0))
  | .finite .negative m e _ => toLex (-1, toLex (-e, -m))
  | .zero _ | .notANumber => toLex (0, toLex (0, 0))
  | .finite .positive m e _ => toLex (1, toLex (e, m))
  | .infinity .positive => toLex (2, toLex (0, 0))

theorem compare_finite (i : ℤ) (e f m n : ℤ) :
    compare (toLex (i, toLex (e, m))) (toLex (i, toLex (f, n))) =
      (compare e f).then (compare m n) := by
  simp only [Prod.Lex.compare_def, compareLex, compareOn, ofLex_toLex, compare_eq_iff_eq.mpr rfl,
    Ordering.eq_then]

theorem compare_eq_compare_rank {a b : UnpackedFloat} (ha : a.isNaN = false)
    (hb : b.isNaN = false) : a.compare b = some (compare (unpackedRank a) (unpackedRank b)) := by
  cases a with
  | notANumber => cases ha
  | zero s => cases b with
    | notANumber => cases hb
    | zero t => rfl
    | infinity t => cases t <;> rfl
    | finite t => cases t <;> rfl
  | infinity s => cases b with
    | notANumber => cases hb
    | zero t => cases s <;> rfl
    | infinity t => cases s <;> cases t <;> rfl
    | finite t => cases s <;> cases t <;> rfl
  | finite s m e => cases b with
    | notANumber => cases hb
    | zero t => cases s <;> rfl
    | infinity t => cases s <;> cases t <;> rfl
    | finite t n f => cases s with
      | positive => cases t with
        | negative => rfl
        | positive =>
            rw [unpackedRank, unpackedRank, compare_finite, compare_cast, UnpackedFloat.compare]
      | negative => cases t with
        | positive => rfl
        | negative =>
            rw [unpackedRank, unpackedRank, compare_finite, compare_neg_neg, compare_neg_neg,
              compare_cast, UnpackedFloat.compare,
              Ordering.swap_then, ← Std.OrientedOrd.eq_swap, ← Std.OrientedOrd.eq_swap]

theorem isNaN_of_compare {a b : UnpackedFloat} {o : Ordering} (h : a.compare b = some o) :
    a.isNaN = false ∧ b.isNaN = false := by
  cases a with
  | notANumber => cases h
  | zero s => cases b with
    | notANumber => cases h
    | _ => exact ⟨rfl, rfl⟩
  | infinity s => cases b with
    | notANumber => cases s <;> cases h
    | _ => exact ⟨rfl, rfl⟩
  | finite s => cases b with
    | notANumber => cases s <;> cases h
    | _ => exact ⟨rfl, rfl⟩

def rank (x : Float) : ℤ ×ₗ ℤ ×ₗ ℤ := unpackedRank x.toModel.unpack

variable {x y z : Float}

theorem lt_iff_rank : x < y ↔ x.isNaN = false ∧ y.isNaN = false ∧ rank x < rank y := by
  have hlt : x < y ↔ x.toModel.unpack.compare y.toModel.unpack = some .lt :=
    (decide_eq_true_iff (p := x.toModel < y.toModel)).trans beq_iff_eq
  rw [hlt]
  constructor
  · intro h
    have ⟨hx, hy⟩ := isNaN_of_compare h
    rw [compare_eq_compare_rank hx hy] at h
    exact ⟨hx, hy, compare_lt_iff_lt.mp (Option.some.inj h)⟩
  · intro ⟨hx, hy, h⟩
    rw [compare_eq_compare_rank hx hy]
    exact congrArg some (compare_lt_iff_lt.mpr h)

theorem le_iff_rank : x ≤ y ↔ x.isNaN = false ∧ y.isNaN = false ∧ rank x ≤ rank y := by
  have hle : x ≤ y ↔ (x.toModel.unpack.compare y.toModel.unpack).any (·.isLE) = true :=
    decide_eq_true_iff (p := x.toModel ≤ y.toModel)
  have hrank : (compare (rank x) (rank y)).isLE = true ↔ rank x ≤ rank y :=
    Ordering.ne_gt_iff_isLE.symm.trans compare_le_iff_le
  rw [hle, ← hrank]
  constructor
  · intro h
    obtain ⟨o, ho, hisLE⟩ := Option.any_eq_true _ _ |>.mp h
    have ⟨hx, hy⟩ := isNaN_of_compare ho
    rw [compare_eq_compare_rank hx hy] at ho
    obtain rfl := Option.some.inj ho
    exact ⟨hx, hy, hisLE⟩
  · intro ⟨hx, hy, h⟩
    rw [compare_eq_compare_rank hx hy]
    exact h

theorem lt_trans (hxy : x < y) (hyz : y < z) : x < z := by
  rw [lt_iff_rank] at *
  exact ⟨hxy.1, hyz.2.1, hxy.2.2.trans hyz.2.2⟩

instance transLt :
    Trans (fun x y : Float => x < y) (fun x y : Float => x < y) (fun x y : Float => x < y) :=
  ⟨lt_trans⟩

theorem le_trans (hxy : x ≤ y) (hyz : y ≤ z) : x ≤ z := by
  rw [le_iff_rank] at *
  exact ⟨hxy.1, hyz.2.1, hxy.2.2.trans hyz.2.2⟩

theorem lt_of_lt_of_le (hxy : x < y) (hyz : y ≤ z) : x < z := by
  rw [lt_iff_rank, le_iff_rank] at *
  exact ⟨hxy.1, hyz.2.1, hxy.2.2.trans_le hyz.2.2⟩

theorem not_le_of_lt (h : x < y) : ¬ y ≤ x := by
  intro hle
  rw [lt_iff_rank, le_iff_rank] at *
  exact hle.2.2.not_gt h.2.2

theorem lt_iff_of_not_le (h : ¬ x ≤ y) : y < x ↔ x.isNaN = false ∧ y.isNaN = false := by
  rw [le_iff_rank] at h
  rw [lt_iff_rank]
  constructor
  · intro ⟨hy, hx, _⟩
    exact ⟨hx, hy⟩
  · intro ⟨hx, hy⟩
    exact ⟨hy, hx, not_le.mp fun hle => h ⟨hx, hy, hle⟩⟩

theorem le_iff_of_not_lt (h : ¬ x < y) : y ≤ x ↔ x.isNaN = false ∧ y.isNaN = false := by
  rw [lt_iff_rank] at h
  rw [le_iff_rank]
  constructor
  · intro ⟨hy, hx, _⟩
    exact ⟨hx, hy⟩
  · intro ⟨hx, hy⟩
    exact ⟨hy, hx, not_lt.mp fun hlt => h ⟨hx, hy, hlt⟩⟩

end UiMarkup.Number
