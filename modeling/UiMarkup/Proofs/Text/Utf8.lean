import UiMarkup.Proofs.Xml.Cells
import UiMarkup.Source.Map

/-!
Reading UTF-8. Text that is written is read back, and a line feed is read from its own byte and from
no other, so that the lines of any bytes are those of the text that is read from them.
-/

namespace UiMarkup.Text

open SourceMap (lineFeed)
open Xml (byteOf)

/-! ### One byte -/

/-- What is read of the bytes before their end. -/
def unfinished : Option Pending → List Char
  | none => []
  | some _ => [replacement]

/-- What one byte adds to the text, where a character may be unfinished before it and after it. -/
def decodeByte (before : Option Pending) (b : UInt8) : List Char × Option Pending :=
  let fresh : List Char × Option Pending :=
    match Lead.ofByte b with
    | .whole c => ([c], none)
    | .opens q => ([], some q)
    | .invalid => ([replacement], none)
  match before with
  | none => fresh
  | some p =>
    if p.accepts b then
      if p.missing ≤ 1 then ([Char.ofNat (p.bitsWith b)], none)
      else ([], some ⟨p.missing - 1, p.bitsWith b, 0x80, 0xBF⟩)
    else (replacement :: fresh.1, fresh.2)

theorem decodeFrom_nil (q : Option Pending) : decodeFrom q [] = unfinished q := by
  cases q <;> rfl

theorem decodeFrom_cons (q : Option Pending) (b : UInt8) (bs : List UInt8) :
    decodeFrom q (b :: bs) = (decodeByte q b).1 ++ decodeFrom (decodeByte q b).2 bs := by
  cases q with
  | none =>
      rw [decodeFrom, decodeByte]
      cases Lead.ofByte b <;> rfl
  | some p =>
      rw [decodeFrom, decodeByte]
      by_cases haccepts : p.accepts b
      · rw [if_pos haccepts, if_pos haccepts]
        split <;> rfl
      · rw [if_neg haccepts, if_neg haccepts]
        cases Lead.ofByte b <;> rfl

/-- Only characters beyond ASCII are unfinished. -/
def Unfinished (q : Option Pending) : Prop := ∀ p, q = some p → ∃ missing, p.Sound missing

theorem unfinished_none : Unfinished none := by
  rintro _ ⟨⟩

theorem Unfinished.decodeByte {q : Option Pending} (h : Unfinished q) (b : UInt8) :
    Unfinished (decodeByte q b).2 := by
  have hfresh : Unfinished (Text.decodeByte none b).2 := by
    rw [Text.decodeByte]
    cases hlead : Lead.ofByte b with
    | whole c => exact unfinished_none
    | invalid => exact unfinished_none
    | opens p =>
        rintro _ ⟨⟩
        exact Lead.sound_of_ofByte hlead
  cases q with
  | none => exact hfresh
  | some p =>
      obtain ⟨missing, hsound⟩ := h p rfl
      rw [Text.decodeByte]
      split
      · next haccepts =>
        split
        · exact unfinished_none
        · next hmore =>
          rintro _ ⟨⟩
          cases missing with
          | zero => exact absurd hsound.count.le hmore
          | succ missing => exact ⟨missing, hsound.next haccepts⟩
      · exact hfresh

/-- A line feed ends what is unfinished, and is read as itself. -/
theorem decodeByte_lineFeed {q : Option Pending} (h : Unfinished q) :
    decodeByte q lineFeed = (unfinished q ++ ['\n'], none) := by
  cases q with
  | none => rfl
  | some p =>
      obtain ⟨missing, hsound⟩ := h p rfl
      have hrejects : p.accepts lineFeed = false := by
        rw [Bool.eq_false_iff, ne_eq, Pending.accepts_iff]
        exact fun haccepts => absurd (hsound.low.trans haccepts.1) (by decide)
      rw [decodeByte, hrejects]
      rfl

theorem lineFeed_notMem_decodeByte {q : Option Pending} (h : Unfinished q) {b : UInt8}
    (hb : b ≠ lineFeed) : '\n' ∉ (decodeByte q b).1 := by
  have hreplacement : '\n' ≠ replacement := by decide
  have hfresh : '\n' ∉ (decodeByte none b).1 := by
    rw [decodeByte]
    cases hlead : Lead.ofByte b with
    | opens p => exact List.not_mem_nil
    | invalid => simpa using hreplacement
    | whole c =>
        obtain ⟨-, rfl⟩ := Lead.whole_of_ofByte hlead
        rw [List.mem_singleton]
        intro hsame
        have hnat := congrArg Char.toNat hsame
        rw [Xml.toNat_ofNat_toNat] at hnat
        exact hb (UInt8.toNat_inj.mp hnat.symm)
  cases q with
  | none => exact hfresh
  | some p =>
      obtain ⟨missing, hsound⟩ := h p rfl
      rw [decodeByte]
      split
      · next haccepts =>
        split
        · next hlast =>
          obtain rfl : missing = 0 := by
            have := hsound.count
            omega
          obtain ⟨hlarge, hvalid⟩ := hsound.isValidChar haccepts
          rw [List.mem_singleton]
          intro hsame
          have hnat := congrArg Char.toNat hsame
          rw [Xml.toNat_ofNat_of_isValidChar hvalid] at hnat
          exact absurd (hnat ▸ hlarge) (by decide)
        · exact List.not_mem_nil
      · rw [List.mem_cons, not_or]
        exact ⟨hreplacement, hfresh⟩

/-! ### Lines -/

theorem decodeFrom_append_lineFeed {q : Option Pending} (h : Unfinished q) (a b : List UInt8) :
    decodeFrom q (a ++ lineFeed :: b) = decodeFrom q a ++ '\n' :: decodeUtf8 b := by
  induction a generalizing q with
  | nil =>
      rw [List.nil_append, decodeFrom_cons, decodeByte_lineFeed h, decodeFrom_nil,
        decodeUtf8, List.append_assoc]
      rfl
  | cons d a ih =>
      rw [List.cons_append, decodeFrom_cons, decodeFrom_cons q d a, ih (h.decodeByte d),
        List.append_assoc]

theorem lineFeed_notMem_decodeFrom {q : Option Pending} (h : Unfinished q) {bs : List UInt8}
    (hbs : lineFeed ∉ bs) : '\n' ∉ decodeFrom q bs := by
  induction bs generalizing q with
  | nil =>
      rw [decodeFrom_nil]
      cases q with
      | none => exact List.not_mem_nil
      | some p => simp [unfinished, replacement]
  | cons b bs ih =>
      obtain ⟨hb, hbs⟩ := not_or.mp (List.mem_cons.not.mp hbs)
      rw [decodeFrom_cons, List.mem_append, not_or]
      exact ⟨lineFeed_notMem_decodeByte h (Ne.symm hb), ih (h.decodeByte b) hbs⟩

theorem decodeUtf8_append_lineFeed (a b : List UInt8) :
    decodeUtf8 (a ++ lineFeed :: b) = decodeUtf8 a ++ '\n' :: decodeUtf8 b :=
  decodeFrom_append_lineFeed unfinished_none a b

theorem lineFeed_notMem_decodeUtf8 {bs : List UInt8} (h : lineFeed ∉ bs) : '\n' ∉ decodeUtf8 bs :=
  lineFeed_notMem_decodeFrom unfinished_none h

/-! ### What is written -/

theorem encodeUtf8_append (a b : List Char) : encodeUtf8 (a ++ b) = encodeUtf8 a ++ encodeUtf8 b :=
  List.flatMap_append

theorem utf8Length_cons (c : Char) (cs : List Char) :
    utf8Length (c :: cs) = c.utf8Size + utf8Length cs := rfl

theorem utf8Length_append (a b : List Char) :
    utf8Length (a ++ b) = utf8Length a + utf8Length b := by
  induction a with
  | nil => exact (Nat.zero_add _).symm
  | cons c a ih => rw [List.cons_append, utf8Length_cons, utf8Length_cons, ih, Nat.add_assoc]

theorem length_encodeUtf8 (cs : List Char) : (encodeUtf8 cs).length = utf8Length cs := by
  induction cs with
  | nil => rfl
  | cons c cs ih =>
      rw [utf8Length_cons, ← ih, encodeUtf8, List.flatMap_cons, List.length_append,
        String.length_utf8EncodeChar]
      rfl

theorem toNat_ofNat_of_lt {n : Nat} (h : n < 256) : (UInt8.ofNat n).toNat = n :=
  UInt8.toNat_ofNat_of_lt' h

namespace Lead

theorem ofByte_one {n : Nat} (h : n < 0x80) : ofByte (UInt8.ofNat n) = .whole (Char.ofNat n) := by
  rw [ofByte, toNat_ofNat_of_lt (by omega), if_pos h]

theorem ofByte_two {n : Nat} (hlow : 2 ≤ n) (hhigh : n < 0x20) :
    ofByte (UInt8.ofNat (n + 0xC0)) = .opens ⟨1, n, 0x80, 0xBF⟩ := by
  rw [ofByte, toNat_ofNat_of_lt (by omega), if_neg (by omega), if_neg (by omega), if_pos (by omega),
    Nat.add_sub_cancel]

theorem ofByte_three {n : Nat} (h : n < 0x10) :
    ofByte (UInt8.ofNat (n + 0xE0)) =
      .opens ⟨2, n, if n = 0 then 0xA0 else 0x80, if n = 0xD then 0x9F else 0xBF⟩ := by
  interval_cases n <;> rfl

theorem ofByte_four {n : Nat} (h : n ≤ 4) :
    ofByte (UInt8.ofNat (n + 0xF0)) =
      .opens ⟨3, n, if n = 0 then 0x90 else 0x80, if n = 4 then 0x8F else 0xBF⟩ := by
  interval_cases n <;> rfl

end Lead

theorem decodeFrom_opens {b : UInt8} {p : Pending} (h : Lead.ofByte b = .opens p)
    (bs : List UInt8) : decodeFrom none (b :: bs) = decodeFrom (some p) bs := by
  rw [decodeFrom, h]

/-- The byte that brings the next six bits of a character. -/
theorem decodeFrom_next {missing bits n : Nat} {low high b : UInt8} (hb : b.toNat = n + 0x80)
    (hlow : low.toNat ≤ n + 0x80) (hhigh : n + 0x80 ≤ high.toNat) (bs : List UInt8) :
    decodeFrom (some ⟨missing, bits, low, high⟩) (b :: bs) =
      if missing ≤ 1 then Char.ofNat (bits * 64 + n) :: decodeFrom none bs
      else decodeFrom (some ⟨missing - 1, bits * 64 + n, 0x80, 0xBF⟩) bs := by
  have haccepts : Pending.accepts ⟨missing, bits, low, high⟩ b := by
    rw [Pending.accepts_iff, hb]
    exact ⟨hlow, hhigh⟩
  have hsix : b.toNat - 0x80 = n := by omega
  have hbits : Pending.bitsWith ⟨missing, bits, low, high⟩ b = bits * 64 + n :=
    congrArg (bits * 64 + ·) hsix
  rw [decodeFrom, if_pos haccepts, hbits]

/-- A byte behind the second one may bring any bits. -/
theorem decodeFrom_nextOfAny {missing bits n : Nat} (hn : n < 64) (bs : List UInt8) :
    decodeFrom (some ⟨missing, bits, 0x80, 0xBF⟩) (UInt8.ofNat (n + 0x80) :: bs) =
      if missing ≤ 1 then Char.ofNat (bits * 64 + n) :: decodeFrom none bs
      else decodeFrom (some ⟨missing - 1, bits * 64 + n, 0x80, 0xBF⟩) bs := by
  refine decodeFrom_next (toNat_ofNat_of_lt (by omega)) ?_ ?_ bs
  · show 0x80 ≤ n + 0x80
    omega
  · show n + 0x80 ≤ 0xBF
    omega

theorem decodeFrom_utf8EncodeChar (c : Char) (bs : List UInt8) :
    decodeFrom none (String.utf8EncodeChar c ++ bs) = c :: decodeFrom none bs := by
  have hvalid : c.toNat < 0xD800 ∨ 0xDFFF < c.toNat ∧ c.toNat < 0x110000 := c.valid
  have hnat : c.val.toNat = c.toNat := rfl
  have hchar {n : Nat} (h : n = c.toNat) : Char.ofNat n = c := h ▸ c.ofNat_toNat
  rw [String.utf8EncodeChar, hnat]
  split
  · next hone =>
    rw [List.singleton_append, decodeFrom, Lead.ofByte_one (by omega), hchar rfl]
  · split
    · next htwo =>
      rw [Nat.mod_eq_of_lt (by omega : c.toNat / 64 < 0x20), List.cons_append,
        List.singleton_append, decodeFrom_opens (Lead.ofByte_two (by omega) (by omega)),
        decodeFrom_nextOfAny (by omega), if_pos le_rfl, hchar (by omega)]
    · split
      · next hthree =>
        rw [Nat.mod_eq_of_lt (by omega : c.toNat / 4096 < 0x10), List.cons_append, List.cons_append,
          List.singleton_append, decodeFrom_opens (Lead.ofByte_three (by omega)),
          decodeFrom_next (toNat_ofNat_of_lt (by omega)) ?_ ?_, if_neg (by decide),
          decodeFrom_nextOfAny (by omega), if_pos le_rfl, hchar (by omega)]
        · split <;> simp only [UInt8.reduceToNat] <;> omega
        · split <;> simp only [UInt8.reduceToNat] <;> omega
      · next hlarge =>
        rw [Nat.mod_eq_of_lt (by omega : c.toNat / 262144 < 8), List.cons_append, List.cons_append,
          List.cons_append, List.singleton_append, decodeFrom_opens (Lead.ofByte_four (by omega)),
          decodeFrom_next (toNat_ofNat_of_lt (by omega)) ?_ ?_, if_neg (by decide),
          decodeFrom_nextOfAny (by omega), if_neg (by decide), decodeFrom_nextOfAny (by omega),
          if_pos le_rfl, hchar (by omega)]
        · split <;> simp only [UInt8.reduceToNat] <;> omega
        · split <;> simp only [UInt8.reduceToNat] <;> omega

/-- What is written is read back, whatever bytes come behind it. -/
theorem decodeUtf8_encodeUtf8_append (cs : List Char) (bs : List UInt8) :
    decodeUtf8 (encodeUtf8 cs ++ bs) = cs ++ decodeUtf8 bs := by
  induction cs with
  | nil => rfl
  | cons c cs ih =>
      rw [encodeUtf8, List.flatMap_cons, List.append_assoc]
      exact (decodeFrom_utf8EncodeChar c (encodeUtf8 cs ++ bs)).trans (congrArg (c :: ·) ih)

theorem decodeUtf8_encodeUtf8 (cs : List Char) : decodeUtf8 (encodeUtf8 cs) = cs := by
  have h := decodeUtf8_encodeUtf8_append cs []
  rwa [List.append_nil, show decodeUtf8 [] = [] from rfl, List.append_nil] at h

theorem encodeUtf8_ne_nil {cs : List Char} (h : cs ≠ []) : encodeUtf8 cs ≠ [] := by
  intro hnil
  apply h
  rw [← decodeUtf8_encodeUtf8 cs, hnil]
  rfl

/-! ### The bytes of signs -/

theorem utf8EncodeChar_of_ascii {c : Char} (h : c.toNat < 0x80) :
    String.utf8EncodeChar c = [byteOf c] := by
  have hsize : c.utf8Size = 1 := by
    rw [Char.utf8Size_eq_one_iff, UInt32.le_iff_toNat_le]
    exact Nat.le_of_lt_succ h
  exact String.utf8EncodeChar_eq_singleton hsize

theorem encodeUtf8_of_ascii {cs : List Char} (h : ∀ c ∈ cs, c.toNat < 0x80) :
    encodeUtf8 cs = cs.map byteOf := by
  induction cs with
  | nil => rfl
  | cons c cs ih =>
      obtain ⟨hc, hcs⟩ := List.forall_mem_cons.mp h
      rw [encodeUtf8, List.flatMap_cons, utf8EncodeChar_of_ascii hc]
      exact congrArg (byteOf c :: ·) (ih hcs)

theorem beyond_of_mem_utf8EncodeChar {c : Char} (h : 0x80 ≤ c.toNat) :
    ∀ b ∈ String.utf8EncodeChar c, 0x80 ≤ b.toNat := by
  have hnat : c.val.toNat = c.toNat := rfl
  rw [String.utf8EncodeChar, hnat]
  split_ifs <;> simp <;> omega

/-- A character is written as bytes that it is read from. -/
theorem spelledBy_utf8EncodeChar (c : Char) (offset : Nat) :
    Xml.SpelledBy (.ofChar c offset) (String.utf8EncodeChar c) := by
  by_cases hc : c.toNat < 0x80
  · rw [utf8EncodeChar_of_ascii hc]
    exact .ascii hc rfl (by simpa [Xml.Cell.ofChar] using hc)
  · have hall := beyond_of_mem_utf8EncodeChar (Nat.le_of_not_lt hc)
    cases hbytes : String.utf8EncodeChar c with
    | nil => exact absurd hbytes (by simp)
    | cons b bs => exact .beyond (Nat.le_of_not_lt hc) (hbytes ▸ hall)

/-- The byte of a sign of ASCII is found where the sign is. -/
theorem byteOf_mem_encodeUtf8_iff {sign : Char} (h : sign.toNat < 0x80) {cs : List Char} :
    byteOf sign ∈ encodeUtf8 cs ↔ sign ∈ cs := by
  rw [encodeUtf8, List.mem_flatMap]
  constructor
  · intro ⟨c, hc, hmem⟩
    exact ((spelledBy_utf8EncodeChar c 0).mem_iff h).mp hmem ▸ hc
  · intro hc
    exact ⟨sign, hc, ((spelledBy_utf8EncodeChar sign 0).mem_iff h).mpr rfl⟩

theorem lineFeed_mem_encodeUtf8_iff {cs : List Char} : lineFeed ∈ encodeUtf8 cs ↔ '\n' ∈ cs :=
  @byteOf_mem_encodeUtf8_iff '\n' (by decide) cs

end UiMarkup.Text
