import UiMarkup.Number.Rounding
import UiMarkup.Proofs.Number.Comparison

/-!
Rounding to the nearest double keeps the order of quotients (`nearest_le_nearest`): first the
exponent of a quotient tells between which powers of two it lies, then the bits of a magnitude
ascend with it, and the doubles of ascending bits are ascending. So a remainder lies between zero
and the modulus, unless it is no number (`floorMod_bounds`).
-/

namespace UiMarkup.Number

open Float.Model (UnpackedFloat)

variable {num den num' den' : ℕ} {e e' : ℤ}

/-! ### Quotients of whole numbers -/

/-- The rounded quotient is at most so much, where a tie counts for the even number. -/
theorem roundDiv_le_iff (hden : 0 < den) (k : ℕ) :
    roundDiv num den ≤ k ↔ 2 * num < (2 * k + 1) * den ∨
    (2 * num = (2 * k + 1) * den ∧ k % 2 = 0) := by
  have hnum : 2 * num = 2 * (num / den) * den + 2 * (num % den) := by
    have := Nat.div_add_mod' num den
    rw [Nat.mul_assoc]
    omega
  have hrest : num % den < den := Nat.mod_lt num hden
  rw [roundDiv, hnum]
  obtain hlt | rfl | hlt := lt_trichotomy k (num / den)
  · obtain ⟨j, hj⟩ := Nat.exists_eq_add_of_lt hlt
    rw [hj]
    have : (2 * (k + j + 1)) * den = (2 * k + 1) * den + (2 * j + 1) * den := by ring
    have : den ≤ (2 * j + 1) * den := Nat.le_mul_of_pos_left den (Nat.succ_pos _)
    split
    · omega
    · split <;> omega
  · have : (2 * (num / den) + 1) * den = 2 * (num / den) * den + den := by ring
    split
    · omega
    · split <;> omega
  · obtain ⟨j, rfl⟩ := Nat.exists_eq_add_of_lt hlt
    have : (2 * (num / den + j + 1) + 1) * den =
        2 * (num / den) * den + (2 * j * den + 3 * den) := by ring
    split
    · omega
    · split <;> omega

theorem roundDiv_le_roundDiv (hden : 0 < den) (hden' : 0 < den') (h : num * den' ≤ num' * den) :
    roundDiv num den ≤ roundDiv num' den' := by
  generalize hk : roundDiv num' den' = k
  have hscaled : 2 * num * den' ≤ 2 * num' * den := by
    rw [Nat.mul_assoc, Nat.mul_assoc]
    exact Nat.mul_le_mul_left 2 h
  rw [roundDiv_le_iff hden]
  obtain hlt | ⟨htie, heven⟩ := (roundDiv_le_iff hden' k).mp hk.le
  · refine .inl (Nat.lt_of_mul_lt_mul_right (a := den') (hscaled.trans_lt ?_))
    rw [Nat.mul_right_comm _ den]
    exact Nat.mul_lt_mul_of_pos_right hlt hden
  · rw [htie, Nat.mul_right_comm _ den'] at hscaled
    exact (Nat.le_of_mul_le_mul_right hscaled hden').lt_or_eq.imp_right fun heq => ⟨heq, heven⟩

theorem roundDiv_one (k : ℕ) : roundDiv k 1 = k := by
  simp [roundDiv, Nat.mod_one]

/-! ### Powers of two -/

theorem powRatio_pos {base : ℕ} (hbase : 0 < base) (e : ℤ) :
    0 < (powRatio base e).1 ∧ 0 < (powRatio base e).2 :=
  ⟨Nat.pow_pos hbase, Nat.pow_pos hbase⟩

theorem powRatio_div (e : ℤ) : ((powRatio 2 e).1 : ℚ) / (powRatio 2 e).2 = 2 ^ e := by
  have hsub : e = e.toNat - (-e).toNat := by omega
  conv_rhs => rw [hsub]
  rw [zpow_sub₀ two_ne_zero, zpow_natCast, zpow_natCast, powRatio, Nat.pow_eq, Nat.pow_eq,
    Nat.cast_pow, Nat.cast_pow, Nat.cast_two]

/-- The size of a quotient, against a count of a power of two. -/
theorem quotient_lt_iff (hden : 0 < den) (k : ℕ) (e : ℤ) :
    num * (powRatio 2 e).2 < k * (den * (powRatio 2 e).1) ↔ (num : ℚ) / den < k * 2 ^ e := by
  have ⟨hp, hq⟩ := powRatio_pos Nat.two_pos e
  have hden : (0 : ℚ) < den := Nat.cast_pos.mpr hden
  rw [← powRatio_div e, ← mul_div_assoc, div_lt_div_iff₀ hden (Nat.cast_pos.mpr hq)]
  norm_cast
  rw [Nat.mul_assoc, Nat.mul_comm den]

theorem hiddenBit_mul (e : ℤ) : (hiddenBit : ℚ) * 2 ^ e = 2 ^ (e + 52) := by
  rw [zpow_add₀ two_ne_zero, mul_comm]
  norm_num [hiddenBit]

theorem isShort_iff (hden : 0 < den) (e : ℤ) :
    isShort num den e = true ↔ (num : ℚ) / den < 2 ^ (e + 52) := by
  rw [← hiddenBit_mul, ← quotient_lt_iff hden, isShort]
  simp

theorem log2_bounds (hnum : 0 < num) :
    (2 : ℚ) ^ (num.log2 : ℤ) ≤ num ∧ (num : ℚ) < 2 ^ ((num.log2 : ℤ) + 1) := by
  constructor
  · exact_mod_cast Nat.log2_self_le hnum.ne'
  · exact_mod_cast Nat.lt_log2_self

/-- The logarithms of a quotient's parts tell its size up to a factor of two. -/
theorem quotient_bounds (hnum : 0 < num) (hden : 0 < den) :
    (2 : ℚ) ^ ((num.log2 : ℤ) - den.log2 - 1) ≤ num / den ∧
    (num : ℚ) / den < 2 ^ ((num.log2 : ℤ) - den.log2 + 1) := by
  have hpos : (0 : ℚ) < den := Nat.cast_pos.mpr hden
  have ⟨hnumLow, hnumHigh⟩ := log2_bounds hnum
  have ⟨hdenLow, hdenHigh⟩ := log2_bounds hden
  constructor
  · rw [le_div_iff₀ hpos]
    calc (2 : ℚ) ^ ((num.log2 : ℤ) - den.log2 - 1) * den
        ≤ 2 ^ ((num.log2 : ℤ) - den.log2 - 1) * 2 ^ ((den.log2 : ℤ) + 1) := by gcongr
      _ = 2 ^ (num.log2 : ℤ) := by
          rw [← zpow_add₀ two_ne_zero]
          congr 1
          omega
      _ ≤ num := hnumLow
  · rw [div_lt_iff₀ hpos]
    calc (num : ℚ) < 2 ^ ((num.log2 : ℤ) + 1) := hnumHigh
      _ = 2 ^ ((num.log2 : ℤ) - den.log2 + 1) * 2 ^ (den.log2 : ℤ) := by
          rw [← zpow_add₀ two_ne_zero]
          congr 1
          omega
      _ ≤ 2 ^ ((num.log2 : ℤ) - den.log2 + 1) * den := by gcongr

theorem fullExponent_bounds (hnum : 0 < num) (hden : 0 < den) :
    (2 : ℚ) ^ (fullExponent num den + 52) ≤ num / den ∧
    (num : ℚ) / den < 2 ^ (fullExponent num den + 53) := by
  have ⟨hlow, hhigh⟩ := quotient_bounds hnum hden
  rw [fullExponent]
  split
  · rename_i hshort
    rw [isShort_iff hden] at hshort
    exact ⟨by convert hlow using 2; omega, by convert hshort using 2; omega⟩
  · rename_i hwide
    rw [isShort_iff hden, not_lt] at hwide
    exact ⟨hwide, by convert hhigh using 2; omega⟩

theorem lt_of_nearestExponent (hnum : 0 < num) (hden : 0 < den) :
    (num : ℚ) / den < 2 ^ (nearestExponent num den + 53) := by
  have hle : fullExponent num den ≤ nearestExponent num den := le_max_right _ _
  refine (fullExponent_bounds hnum hden).2.trans_le ?_
  gcongr
  exact one_le_two

/-- Above the least exponent a mantissa has 53 bits. -/
theorem le_of_nearestExponent (hnum : 0 < num) (hden : 0 < den)
    (h : leastExponent < nearestExponent num den) :
    (2 : ℚ) ^ (nearestExponent num den + 52) ≤ num / den := by
  have heq : nearestExponent num den = fullExponent num den :=
    max_eq_right (lt_max_iff.mp h |>.resolve_left (lt_irrefl _)).le
  rw [heq]
  exact (fullExponent_bounds hnum hden).1

/-- Greater quotients have greater exponents. -/
theorem nearestExponent_le (hnum : 0 < num) (hden : 0 < den) (hnum' : 0 < num') (hden' : 0 < den')
    (h : (num : ℚ) / den ≤ num' / den') : nearestExponent num den ≤ nearestExponent num' den' := by
  by_contra hlt
  have hmore : nearestExponent num' den' + 53 ≤ nearestExponent num den + 52 := by omega
  have hleast : leastExponent < nearestExponent num den :=
    (le_max_left _ _).trans_lt (not_le.mp hlt)
  refine absurd h (not_le.mpr ?_)
  calc (num' : ℚ) / den' < 2 ^ (nearestExponent num' den' + 53) := lt_of_nearestExponent hnum' hden'
    _ ≤ 2 ^ (nearestExponent num den + 52) := zpow_le_zpow_right₀ one_le_two hmore
    _ ≤ num / den := le_of_nearestExponent hnum hden hleast

/-! ### Mantissas -/

theorem nearestMantissa_eq (num den : ℕ) (e : ℤ) :
    nearestMantissa num den e = roundDiv (num * (powRatio 2 e).2) (den * (powRatio 2 e).1) :=
  rfl

theorem nearestMantissa_le_nearestMantissa (hden : 0 < den) (hden' : 0 < den')
    (h : num * den' ≤ num' * den) (e : ℤ) :
    nearestMantissa num den e ≤ nearestMantissa num' den' e := by
  have ⟨hp, hq⟩ := powRatio_pos Nat.two_pos e
  rw [nearestMantissa_eq, nearestMantissa_eq]
  apply roundDiv_le_roundDiv (Nat.mul_pos hden hp) (Nat.mul_pos hden' hp)
  calc num * (powRatio 2 e).2 * (den' * (powRatio 2 e).1)
      = num * den' * ((powRatio 2 e).2 * (powRatio 2 e).1) := by ring
    _ ≤ num' * den * ((powRatio 2 e).2 * (powRatio 2 e).1) := Nat.mul_le_mul_right _ h
    _ = num' * (powRatio 2 e).2 * (den * (powRatio 2 e).1) := by ring

theorem nearestMantissa_le (hden : 0 < den) (h : (num : ℚ) / den < 2 ^ (e + 53)) :
    nearestMantissa num den e ≤ 2 * hiddenBit := by
  have ⟨hp, _⟩ := powRatio_pos Nat.two_pos e
  rw [nearestMantissa_eq, ← roundDiv_one (2 * hiddenBit)]
  apply roundDiv_le_roundDiv (Nat.mul_pos hden hp) Nat.one_pos
  rw [Nat.mul_one]
  apply le_of_lt
  rw [quotient_lt_iff hden, Nat.cast_mul, mul_assoc, hiddenBit_mul]
  convert h using 1
  rw [Nat.cast_two, ← zpow_one_add₀ two_ne_zero]
  congr 1
  omega

theorem hiddenBit_le_nearestMantissa (hden : 0 < den) (h : (2 : ℚ) ^ (e + 52) ≤ num / den) :
    hiddenBit ≤ nearestMantissa num den e := by
  have ⟨hp, _⟩ := powRatio_pos Nat.two_pos e
  rw [nearestMantissa_eq, ← roundDiv_one hiddenBit]
  apply roundDiv_le_roundDiv Nat.one_pos (Nat.mul_pos hden hp)
  rw [Nat.mul_one, ← Nat.not_lt, quotient_lt_iff hden, hiddenBit_mul, not_lt]
  exact h

/-! ### Bits -/

theorem hiddenBit_le_top : hiddenBit ≤ topExponent * hiddenBit :=
  Nat.le_mul_of_pos_left _ (by decide)

theorem magnitudeBits_le_of_le {m n : ℕ} (he : leastExponent ≤ e) (h : m ≤ n) :
    magnitudeBits m e ≤ magnitudeBits n e := by
  have hpos : 1 ≤ (e - leastExponent + 1).toNat := by omega
  have hstep : hiddenBit ≤ (e - leastExponent + 1).toNat * hiddenBit :=
    Nat.le_mul_of_pos_left _ hpos
  have htop := hiddenBit_le_top
  rw [magnitudeBits, magnitudeBits]
  generalize (e - leastExponent + 1).toNat * hiddenBit = own at hstep ⊢
  generalize topExponent * hiddenBit = top at htop ⊢
  generalize hiddenBit = bit at *
  split <;> split <;> omega

/-- The bits of greater exponents are greater, also where the mantissa below has been
rounded up to 54 bits. -/
theorem magnitudeBits_le_of_lt {m n : ℕ} (he : leastExponent ≤ e) (hlt : e < e')
    (hm : m ≤ 2 * hiddenBit) (hn : hiddenBit ≤ n) : magnitudeBits m e ≤ magnitudeBits n e' := by
  have hsucc : (e - leastExponent + 1).toNat + 1 ≤ (e' - leastExponent + 1).toNat := by omega
  have hstep : ((e - leastExponent + 1).toNat + 1) * hiddenBit ≤
      (e' - leastExponent + 1).toNat * hiddenBit :=
    Nat.mul_le_mul_right _ hsucc
  have htop := hiddenBit_le_top
  rw [Nat.succ_mul] at hstep
  rw [magnitudeBits, magnitudeBits, if_neg (Nat.not_lt.mpr hn)]
  generalize (e - leastExponent + 1).toNat * hiddenBit = own at hstep ⊢
  generalize (e' - leastExponent + 1).toNat * hiddenBit = next at hstep ⊢
  generalize topExponent * hiddenBit = top at htop ⊢
  generalize hiddenBit = bit at *
  split <;> omega

theorem magnitudeBits_le_top (m : ℕ) (e : ℤ) : magnitudeBits m e ≤ topExponent * hiddenBit := by
  rw [magnitudeBits]
  split
  · rename_i hlt
    exact hlt.le.trans hiddenBit_le_top
  · exact min_le_right _ _

theorem nearestBits_le_top (num den : ℕ) : nearestBits num den ≤ topExponent * hiddenBit := by
  rw [nearestBits]
  split
  · exact Nat.zero_le _
  · exact magnitudeBits_le_top _ _

theorem nearestBits_le_nearestBits (hden : 0 < den) (hden' : 0 < den')
    (h : num * den' ≤ num' * den) : nearestBits num den ≤ nearestBits num' den' := by
  obtain rfl | hnum := num.eq_zero_or_pos
  · exact Nat.zero_le _
  have hnum' : 0 < num' := Nat.pos_of_mul_pos_right ((Nat.mul_pos hnum hden').trans_le h)
  have hquotients : (num : ℚ) / den ≤ num' / den' := by
    rw [div_le_div_iff₀ (Nat.cast_pos.mpr hden) (Nat.cast_pos.mpr hden')]
    exact_mod_cast h
  have hleast : leastExponent ≤ nearestExponent num den := le_max_left _ _
  rw [nearestBits, nearestBits, if_neg hnum.ne', if_neg hnum'.ne']
  obtain heq | hlt := (nearestExponent_le hnum hden hnum' hden' hquotients).eq_or_lt
  · rw [← heq]
    exact magnitudeBits_le_of_le hleast (nearestMantissa_le_nearestMantissa hden hden' h _)
  · apply magnitudeBits_le_of_lt hleast hlt
    · exact nearestMantissa_le hden (lt_of_nearestExponent hnum hden)
    · exact hiddenBit_le_nearestMantissa hden'
        (le_of_nearestExponent hnum' hden' (hleast.trans_lt hlt))

/-! ### Doubles of ascending bits -/

section

variable {bits : BitVec 64}

theorem toNat_unpackMantissa (bits : BitVec 64) :
    (@UnpackedFloat.unpackMantissa .binary64 bits).toNat = bits.toNat % hiddenBit := by
  simp [UnpackedFloat.unpackMantissa, BitVec.extractLsb, BitVec.extractLsb', hiddenBit]

theorem toNat_unpackExponent (h : bits.toNat ≤ topExponent * hiddenBit) :
    (@UnpackedFloat.unpackExponent .binary64 bits).toNat = bits.toNat / hiddenBit := by
  simp only [topExponent, hiddenBit, Nat.pow_eq] at h ⊢
  simp only [UnpackedFloat.unpackExponent, BitVec.extractLsb, BitVec.extractLsb', BitVec.toNat_cast,
    BitVec.toNat_ofNat]
  rw [Nat.shiftRight_eq_div_pow]
  omega

theorem unpackSign_eq_zero (h : bits.toNat ≤ topExponent * hiddenBit) :
    @UnpackedFloat.unpackSign .binary64 bits = 0#1 := by
  simp only [topExponent, hiddenBit, Nat.pow_eq] at h
  apply BitVec.eq_of_toNat_eq
  simp only [UnpackedFloat.unpackSign, BitVec.extractLsb, BitVec.extractLsb', BitVec.toNat_cast,
    BitVec.toNat_ofNat]
  rw [Nat.shiftRight_eq_div_pow]
  omega

/-- Among these bits only those of infinity have the top exponent. -/
theorem unpackMantissa_eq_zero (h : bits.toNat ≤ topExponent * hiddenBit)
    (htop : (@UnpackedFloat.unpackExponent .binary64 bits).toNat = topExponent) :
    (@UnpackedFloat.unpackMantissa .binary64 bits).toNat = 0 := by
  rw [toNat_unpackExponent h] at htop
  have hdivision := Nat.div_add_mod' bits.toNat hiddenBit
  rw [htop] at hdivision
  rw [toNat_unpackMantissa]
  omega

/-- Where the positive double of an exponent and a fraction, as they stand in its bits,
stands among all numbers. -/
def positiveRank (exponent fraction : ℕ) : ℤ ×ₗ ℤ ×ₗ ℤ :=
  if exponent = topExponent then toLex (2, toLex (0, 0))
  else if exponent = 0 then
    if fraction = 0 then toLex (0, toLex (0, 0))
    else toLex (1, toLex (leastExponent, (fraction : ℤ)))
  else toLex (1, toLex ((exponent : ℤ) - 1075, (hiddenBit : ℤ) + fraction))

theorem unpack_bits (h : bits.toNat ≤ topExponent * hiddenBit) :
    (UnpackedFloat.unpack .binary64 bits).isNaN = false ∧
      unpackedRank (UnpackedFloat.unpack .binary64 bits) =
        positiveRank (bits.toNat / hiddenBit) (bits.toNat % hiddenBit) := by
  have hexponent := toNat_unpackExponent h
  have hmantissa := toNat_unpackMantissa bits
  have hsign := unpackSign_eq_zero h
  have htop : @UnpackedFloat.unpackExponent .binary64 bits = -1#11 ↔
      (@UnpackedFloat.unpackExponent .binary64 bits).toNat = topExponent := BitVec.toNat_inj.symm
  have hzero : @UnpackedFloat.unpackExponent .binary64 bits = 0#11 ↔
      (@UnpackedFloat.unpackExponent .binary64 bits).toNat = 0 := BitVec.toNat_inj.symm
  have hfraction : @UnpackedFloat.unpackMantissa .binary64 bits = 0#52 ↔
      (@UnpackedFloat.unpackMantissa .binary64 bits).toNat = 0 := BitVec.toNat_inj.symm
  have hhidden : ((1#1 ++ @UnpackedFloat.unpackMantissa .binary64 bits).toNat : ℤ) =
      (hiddenBit : ℤ) + (@UnpackedFloat.unpackMantissa .binary64 bits).toNat := by
    rw [BitVec.toNat_append, ← Nat.shiftLeft_add_eq_or_of_lt (BitVec.isLt _)]
    push_cast
    rfl
  rw [← hexponent, ← hmantissa, UnpackedFloat.unpack, positiveRank]
  simp only [hsign, htop, hzero, hfraction]
  split
  · rename_i hinfinite
    rw [if_pos (unpackMantissa_eq_zero h hinfinite)]
    exact ⟨rfl, rfl⟩
  · split
    · rename_i hleast
      split
      · exact ⟨rfl, rfl⟩
      · refine ⟨rfl, ?_⟩
        rw [hleast]
        rfl
    · refine ⟨rfl, ?_⟩
      rw [← hhidden]
      rfl

end

theorem rank_le_rank_iff {k k' m m' : ℤ} : toLex (k, toLex (e, m)) ≤ toLex (k', toLex (e', m')) ↔
    k < k' ∨ (k = k' ∧ (e < e' ∨ (e = e' ∧ m ≤ m'))) := by
  rw [Prod.Lex.toLex_le_toLex, Prod.Lex.toLex_le_toLex]

theorem positiveRank_le {exponent fraction exponent' fraction' : ℕ}
    (hfraction : fraction < hiddenBit)
    (h : exponent < exponent' ∨ (exponent = exponent' ∧ fraction ≤ fraction'))
    (htop : exponent' ≤ topExponent) :
    positiveRank exponent fraction ≤ positiveRank exponent' fraction' := by
  have hleast : leastExponent = -1074 := rfl
  have hinfinite : topExponent = 2047 := rfl
  rw [positiveRank, positiveRank]
  split_ifs <;> rw [rank_le_rank_iff] <;> omega

/-- Bits of no more than infinity are those of a number, and are not changed when it is made. -/
theorem unpack_ofBits {b : ℕ} (hb : b ≤ topExponent * hiddenBit) :
    (Float.ofBits (UInt64.ofNat b)).isNaN = false ∧
      rank (Float.ofBits (UInt64.ofNat b)) = positiveRank (b / hiddenBit) (b % hiddenBit) := by
  have hlt : b < 2 ^ 64 := hb.trans_lt (by decide)
  have htoNat : (UInt64.ofNat b).toBitVec.toNat = b := Nat.mod_eq_of_lt hlt
  have hkept : UnpackedFloat.unpack .binary64 (UnpackedFloat.pack .binary64
      (UnpackedFloat.unpack .binary64 (UInt64.ofNat b).toBitVec)) =
        UnpackedFloat.unpack .binary64 (UInt64.ofNat b).toBitVec := by
    rw [UnpackedFloat.pack_unpack, if_neg]
    intro hnan
    obtain ⟨htop, hfraction⟩ := of_decide_eq_true hnan
    exact hfraction
      (BitVec.eq_of_toNat_eq
        (unpackMantissa_eq_zero (htoNat.symm ▸ hb) (congrArg BitVec.toNat htop)))
  have hbits := unpack_bits (htoNat.symm ▸ hb)
  rw [← hkept, htoNat] at hbits
  exact hbits

theorem ofBits_le_ofBits {a b : ℕ} (hab : a ≤ b) (hb : b ≤ topExponent * hiddenBit) :
    Float.ofBits (UInt64.ofNat a) ≤ Float.ofBits (UInt64.ofNat b) := by
  have ⟨haNumber, haRank⟩ := unpack_ofBits (hab.trans hb)
  have ⟨hbNumber, hbRank⟩ := unpack_ofBits hb
  refine le_iff_rank.mpr ⟨haNumber, hbNumber, ?_⟩
  rw [haRank, hbRank]
  have hpos : 0 < hiddenBit := Nat.two_pow_pos 52
  apply positiveRank_le (Nat.mod_lt _ hpos)
  · obtain heq | hlt := (Nat.div_le_div_right (c := hiddenBit) hab).eq_or_lt
    · refine .inr ⟨heq, ?_⟩
      have ha := Nat.div_add_mod a hiddenBit
      have hb := Nat.div_add_mod b hiddenBit
      rw [heq] at ha
      omega
    · exact .inl hlt
  · exact Nat.div_le_of_le_mul (Nat.mul_comm _ _ ▸ hb)

/-! ### Doubles nearest to quotients -/

theorem nearest_le_nearest (hden : 0 < den) (hden' : 0 < den') (h : num * den' ≤ num' * den) :
    nearest false num den ≤ nearest false num' den' := by
  simp only [nearest, signBit, Bool.false_eq_true, if_false, Nat.zero_add]
  exact ofBits_le_ofBits (nearestBits_le_nearestBits hden hden' h) (nearestBits_le_top num' den')

/-- A remainder lies between zero and the modulus, unless it is no number. -/
theorem floorMod_bounds {x : Float} {modulus : ℕ} (hmodulus : 0 < modulus)
    (h : (floorMod x modulus).isNaN = false) :
    nearest false 0 1 ≤ floorMod x modulus ∧ floorMod x modulus ≤ nearest false modulus 1 := by
  have hnone : notANumber.isNaN = true := by decide
  rw [floorMod] at h ⊢
  cases hx : Binary64.ofFloat x with
  | nan | infinite =>
      rw [hx] at h
      exact absurd (hnone.symm.trans h) Bool.true_eq_false.mp
  | finite negative m e =>
      have ⟨_, hq⟩ := powRatio_pos Nat.two_pos e
      constructor
      · exact nearest_le_nearest Nat.one_pos hq (by simp)
      · apply nearest_le_nearest hq Nat.one_pos
        rw [Nat.mul_one]
        split
        · exact Nat.sub_le _ _
        · exact (Nat.mod_lt _ (Nat.mul_pos hmodulus hq)).le

end UiMarkup.Number
