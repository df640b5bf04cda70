import Mathlib
import UiMarkup.Number.Literal

/-!
Whole numbers from their digits, those of any script with the same place values. Digits, blanks and
letters are sets of characters that lie apart.
-/

namespace UiMarkup

open Text

/-! ### Classes of characters -/

namespace Text

/-- No interval of one set meets one of the other. -/
def CodeSet.apart (s t : CodeSet) : Bool :=
  s.ranges.all fun r => t.ranges.all fun q => r.2.blt q.1 || q.2.blt r.1

theorem CodeSet.contains_of_apart {s t : CodeSet} (h : s.apart t) {c : Char} (hc : s.contains c) :
    t.contains c = false := by
  obtain ⟨r, hr, hrl, hru⟩ := contains_iff.mp hc
  refine Bool.eq_false_iff.mpr fun ht => ?_
  obtain ⟨q, hq, hql, hqu⟩ := contains_iff.mp ht
  have := List.all_eq_true.mp (List.all_eq_true.mp h r hr) q hq
  simp only [Bool.or_eq_true, Nat.blt_eq] at this
  omega

/-- The digits as intervals, of which each run of decimal digits is one. -/
def digits : CodeSet := ⟨decimalZeros.map (fun z => (z, z + 9)) ++ otherDigits.ranges⟩

theorem isDigit_eq_contains (c : Char) : isDigit c = digits.contains c := by
  have hdecimal : isDecimal c = decimalZeros.any fun z => z ≤ c.toNat && c.toNat ≤ z + 9 := by
    rw [isDecimal, decimalValue?, Option.isSome_map, List.isSome_find?]
    simp only [Nat.lt_succ_iff]
  rw [isDigit, hdecimal, digits, CodeSet.contains, CodeSet.contains, List.any_append, List.any_map]
  rfl

theorem apart_digits_blanks : digits.apart blanks := by decide +kernel

theorem apart_letters_blanks : letters.apart blanks := by decide +kernel

theorem apart_digits_letters : digits.apart letters := by decide +kernel

theorem isBlank_of_isDigit {c : Char} (h : isDigit c) : isBlank c = false :=
  CodeSet.contains_of_apart apart_digits_blanks (isDigit_eq_contains c ▸ h)

theorem isBlank_of_isDecimal {c : Char} (h : isDecimal c) : isBlank c = false :=
  isBlank_of_isDigit (isDigit_of_isDecimal h)

theorem isBlank_of_isLetter {c : Char} (h : isLetter c) : isBlank c = false :=
  CodeSet.contains_of_apart apart_letters_blanks h

theorem isDigit_of_isLetter {c : Char} (h : isLetter c) : isDigit c = false :=
  Bool.eq_false_iff.mpr fun hd => by
    have := CodeSet.contains_of_apart apart_digits_letters (isDigit_eq_contains c ▸ hd)
    exact Bool.eq_false_iff.mp this h

end Text

/-! ### Numbers -/

namespace Number

theorem mem_digits_of_isDigit {c : Char} (h : c.isDigit) :
    c ∈ ['0', '1', '2', '3', '4', '5', '6', '7', '8', '9'] := by
  simp only [Char.isDigit, Bool.and_eq_true, decide_eq_true_eq, ge_iff_le, UInt32.le_iff_toNat_le]
    at h
  have hc : c = Char.ofNat c.toNat := (Char.ofNat_toNat c).symm
  have : c.toNat = c.val.toNat := rfl
  obtain ⟨hl, hu⟩ := h
  simp at hl hu
  interval_cases hn : c.toNat <;> simp [hc]

/-- A digit that stands for itself in a number, and is no sign of it. -/
structure PlainDigit (c : Char) : Prop where
  plain : plainDigit c = c
  minus : c ≠ '-'
  plus : c ≠ '+'
  underscore : c ≠ '_'

theorem plainDigit_of_isDigit {c : Char} (h : c.isDigit) : PlainDigit c := by
  have hall : ['0', '1', '2', '3', '4', '5', '6', '7', '8', '9'].all fun d =>
      plainDigit d == d && d != '-' && d != '+' && d != '_' := by decide +kernel
  have := List.all_eq_true.mp hall c (mem_digits_of_isDigit h)
  simp only [Bool.and_eq_true, beq_iff_eq, bne_iff_ne] at this
  obtain ⟨⟨⟨hplain, hminus⟩, hplus⟩, hunderscore⟩ := this
  exact ⟨hplain, hminus, hplus, hunderscore⟩

theorem trimBy_of_forall {p : Char → Bool} {cs : List Char} (h : ∀ c ∈ cs, p c = false) :
    trimBy p cs = cs := by
  have hdrop : ∀ {ds : List Char}, (∀ c ∈ ds, p c = false) → ds.dropWhile p = ds := by
    intro ds hds
    cases ds with
    | nil => rfl
    | cons d ds => simp [hds d]
  rw [trimBy, trimRightBy, hdrop h, hdrop (by simpa using h), List.reverse_reverse]

theorem dropUnderscores_of_forall {cs : List Char} (h : ∀ c ∈ cs, c ≠ '_') (afterDigit : Bool) :
    dropUnderscores afterDigit cs = some cs := by
  induction cs generalizing afterDigit with
  | nil => rfl
  | cons c cs ih =>
      rw [List.forall_mem_cons] at h
      rw [dropUnderscores, ih h.2]
      · rfl
      · exact h.1

theorem takeSign_of_forall {cs : List Char} (h : ∀ c ∈ cs, c ≠ '-' ∧ c ≠ '+') :
    takeSign cs = (false, cs) := by
  unfold takeSign
  split
  · exact absurd rfl (h '-' (by simp)).1
  · exact absurd rfl (h '+' (by simp)).2
  · rfl

/-- The place value of a decimal digit. -/
def placeValue (c : Char) : Nat := (decimalValue? c).getD 0

/-- The number that decimal digits of any script stand for, the last one for the ones. -/
def decimalsValue (cs : List Char) : Nat := Nat.ofDigits 10 (cs.reverse.map placeValue)

theorem decimalsValue_concat (cs : List Char) (c : Char) :
    decimalsValue (cs ++ [c]) = decimalsValue cs * 10 + placeValue c := by
  simp only [decimalsValue, List.reverse_append, List.reverse_singleton, List.singleton_append,
    List.map_cons, Nat.ofDigits_cons]
  omega

theorem plainDigit_eq_ofNat {c : Char} (h : isDecimal c) :
    plainDigit c = Char.ofNat (0x30 + placeValue c) ∧ placeValue c < 10 := by
  obtain ⟨v, hv⟩ := Option.isSome_iff_exists.mp h
  obtain ⟨z, hz, rfl⟩ := Option.map_eq_some_iff.mp hv
  have hrun := List.find?_some hz
  simp only [Bool.and_eq_true, decide_eq_true_eq] at hrun
  rw [plainDigit, placeValue, hv, Option.getD_some]
  exact ⟨rfl, by omega⟩

/-- The digit of ASCII has the same value. -/
theorem plainDigit_of_isDecimal {c : Char} (h : isDecimal c) :
    (plainDigit c).isDigit ∧ (plainDigit c).toNat - 0x30 = placeValue c := by
  have hall : ∀ v < 10, (Char.ofNat (0x30 + v)).isDigit ∧
      (Char.ofNat (0x30 + v)).toNat - 0x30 = v := by decide
  obtain ⟨hplain, hvalue⟩ := plainDigit_eq_ofNat h
  exact hplain ▸ hall _ hvalue

theorem isMargin_of_isDecimal {c : Char} (h : isDecimal c) : isMargin c = false := by
  simp [isMargin, isBlank_of_isDecimal h]

theorem digitsValue_plainDigit {ds : List Char} (h : ∀ c ∈ ds, isDecimal c) :
    digitsValue (ds.map plainDigit) = decimalsValue ds := by
  induction ds using List.reverseRecOn with
  | nil => rfl
  | append_singleton ds c ih =>
      rw [List.forall_mem_append, List.forall_mem_singleton] at h
      rw [decimalsValue_concat, ← ih h.1, ← (plainDigit_of_isDecimal h.2).2]
      simp [digitsValue]

/-- Decimal digits are read up to the limit on their count. -/
theorem readWhole_of_decimals {text ds : List Char} (htext : trimBy isMargin text = ds)
    (hne : ds ≠ []) (h : ∀ c ∈ ds, isDecimal c) :
    readWhole text =
      if maxDigits < ds.length then .error (.tooManyDigits ds.length)
      else .ok (decimalsValue ds) := by
  have hdigit : ∀ c ∈ ds.map plainDigit, c.isDigit :=
    List.forall_mem_map.mpr fun c hc => (plainDigit_of_isDecimal (h c hc)).1
  have hplain : ∀ c ∈ ds.map plainDigit, PlainDigit c :=
    fun c hc => plainDigit_of_isDigit (hdigit c hc)
  have hsign : takeSign (ds.map plainDigit) = (false, ds.map plainDigit) :=
    takeSign_of_forall fun c hc => ⟨(hplain c hc).minus, (hplain c hc).plus⟩
  have hdrop : dropUnderscores false (ds.map plainDigit) = some (ds.map plainDigit) :=
    dropUnderscores_of_forall (fun c hc => (hplain c hc).underscore) false
  have hcount : ((ds.map plainDigit).takeWhile fun c => c.isDigit || c == '_').filter Char.isDigit =
      ds.map plainDigit := by
    rw [List.takeWhile_eq_self_iff.mpr fun c hc => by simp [hdigit c hc],
      List.filter_eq_self.mpr hdigit]
  simp only [readWhole, htext, hsign, hcount, hdrop, List.length_map,
    digitsValue_plainDigit h, signed]
  simp [hne, List.all_eq_true.mpr hdigit]

theorem isDigit_of_mem_toDigits {n : Nat} {c : Char} (h : c ∈ Nat.toDigits 10 n) : c.isDigit :=
  Nat.isDigit_of_mem_toDigits (by decide) (by decide) h

/-- A number is written with decimal digits. -/
theorem isDecimal_of_mem_toDigits {n : Nat} {c : Char} (h : c ∈ Nat.toDigits 10 n) :
    isDecimal c := by
  have hall : ['0', '1', '2', '3', '4', '5', '6', '7', '8', '9'].all isDecimal := by decide
  exact List.all_eq_true.mp hall c (mem_digits_of_isDigit (isDigit_of_mem_toDigits h))

theorem decimalsValue_toDigits (n : Nat) : decimalsValue (Nat.toDigits 10 n) = n := by
  have hplain : (Nat.toDigits 10 n).map plainDigit = Nat.toDigits 10 n :=
    (List.map_congr_left fun c hc =>
      (plainDigit_of_isDigit (isDigit_of_mem_toDigits hc)).plain).trans (List.map_id _)
  have hvalue : digitsValue (Nat.toDigits 10 n) = Nat.ofDigitChars 10 (Nat.toDigits 10 n) 0 := by
    simp [digitsValue, Nat.ofDigitChars, Nat.mul_comm]
  rw [← digitsValue_plainDigit fun c hc => isDecimal_of_mem_toDigits hc, hplain, hvalue]
  exact Nat.ofDigitChars_toDigits (by decide) (by decide)

theorem readWhole_toDigits {n : Nat} (h : (Nat.toDigits 10 n).length ≤ maxDigits) :
    readWhole (Nat.toDigits 10 n) = .ok n := by
  have hdecimal : ∀ c ∈ Nat.toDigits 10 n, isDecimal c := fun c hc => isDecimal_of_mem_toDigits hc
  have htrim : trimBy isMargin (Nat.toDigits 10 n) = Nat.toDigits 10 n :=
    trimBy_of_forall fun c hc => isMargin_of_isDecimal (hdecimal c hc)
  rw [readWhole_of_decimals htrim Nat.toDigits_ne_nil hdecimal, if_neg (by omega),
    decimalsValue_toDigits]

end Number
end UiMarkup
