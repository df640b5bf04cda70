import Mathlib
import UiMarkup.Xml.Content

/-!
Characters and the bytes they are read from. Each character of a document stands at its offset, a
sign of ASCII as its own byte and any other character as bytes beyond ASCII, so that no byte of
another character can be taken for a sign.
-/

namespace UiMarkup

namespace Text

/-- The numbers from one to another are those of characters beyond ASCII, and so are the numbers
that they come to with the six bits of each byte that is missing. -/
def ScalarRange : Nat → Nat → Nat → Prop
  | 0, low, high => 0x80 ≤ low ∧ high < 0x110000 ∧ (high < 0xD800 ∨ 0xE000 ≤ low)
  | missing + 1, low, high => ScalarRange missing (low * 64) (high * 64 + 63)

theorem ScalarRange.narrow {missing low high low' high' : Nat} (h : ScalarRange missing low high)
    (hlow : low ≤ low') (hhigh : high' ≤ high) : ScalarRange missing low' high' := by
  induction missing generalizing low high low' high' with
  | zero =>
      obtain ⟨hbeyond, hwithin, hgap⟩ := h
      exact ⟨by omega, by omega, by omega⟩
  | succ missing ih => exact ih h (Nat.mul_le_mul_right 64 hlow) (by omega)

/-- An unfinished character can only be finished to a character beyond ASCII. -/
structure Pending.Sound (p : Pending) (missing : Nat) : Prop where
  count : p.missing = missing + 1
  low : 0x80 ≤ p.low.toNat
  range : ScalarRange missing (p.bits * 64 + (p.low.toNat - 0x80))
      (p.bits * 64 + (p.high.toNat - 0x80))

theorem Lead.sound_of_ofByte {b : UInt8} {p : Pending} (h : Lead.ofByte b = .opens p) :
    ∃ missing, p.Sound missing := by
  have hb := b.toNat_lt
  rw [Lead.ofByte] at h
  split_ifs at h <;> obtain rfl := Lead.opens.inj h <;> refine ⟨_, rfl, by simp, ?_⟩ <;>
    simp only [ScalarRange, UInt8.reduceToNat] <;> omega

theorem Lead.beyond_of_ofByte {b : UInt8} {p : Pending} (h : Lead.ofByte b = .opens p) :
    0x80 ≤ b.toNat := by
  rw [Lead.ofByte] at h
  split at h
  · cases h
  · omega

theorem Lead.whole_of_ofByte {b : UInt8} {c : Char} (h : Lead.ofByte b = .whole c) :
    b.toNat < 0x80 ∧ c = Char.ofNat b.toNat := by
  rw [Lead.ofByte] at h
  split_ifs at h with hsmall
  exact ⟨hsmall, (Lead.whole.inj h).symm⟩

namespace Pending

variable {p : Pending} {b : UInt8}

theorem accepts_iff : p.accepts b ↔ p.low.toNat ≤ b.toNat ∧ b.toNat ≤ p.high.toNat := by
  simp [accepts, UInt8.le_iff_toNat_le]

theorem Sound.next {missing : Nat} (h : p.Sound (missing + 1)) (hb : p.accepts b) :
    Sound ⟨p.missing - 1, p.bitsWith b, 0x80, 0xBF⟩ missing := by
  obtain ⟨hlow, hhigh⟩ := accepts_iff.mp hb
  refine ⟨by simp [h.count], le_rfl, ?_⟩
  have hrange : ScalarRange (missing + 1) (p.bitsWith b) (p.bitsWith b) :=
    h.range.narrow (Nat.add_le_add_left (by omega) _) (Nat.add_le_add_left (by omega) _)
  simpa [ScalarRange] using hrange

theorem Sound.isValidChar (h : p.Sound 0) (hb : p.accepts b) :
    0x80 ≤ p.bitsWith b ∧ (p.bitsWith b).isValidChar := by
  obtain ⟨hlow, hhigh⟩ := accepts_iff.mp hb
  have hrange : ScalarRange 0 (p.bitsWith b) (p.bitsWith b) :=
    h.range.narrow (Nat.add_le_add_left (by omega) _) (Nat.add_le_add_left (by omega) _)
  exact ⟨hrange.1, hrange.2.2.imp_right fun hlarge => ⟨hlarge, hrange.2.1⟩⟩

end Pending
end Text

namespace Xml

open Text

/-- The byte of a sign of ASCII. -/
def byteOf (sign : Char) : UInt8 := sign.toNat.toUInt8

theorem toNat_byteOf {sign : Char} (h : sign.toNat < 0x80) : (byteOf sign).toNat = sign.toNat :=
  UInt8.toNat_ofNat_of_lt' (Nat.lt_trans h (by decide))

/-- The bytes of one character. -/
inductive SpelledBy (c : Cell) : List UInt8 → Prop
  | ascii (small : c.char.toNat < 0x80) (role : c.role = .ofChar c.char) (near : c.far = false) :
      SpelledBy c [byteOf c.char]
  | beyond {b : UInt8} {bs : List UInt8} (large : 0x80 ≤ c.char.toNat)
      (all : ∀ d ∈ b :: bs, 0x80 ≤ d.toNat) :
      SpelledBy c (b :: bs)

theorem SpelledBy.mem_iff {c : Cell} {own : List UInt8} (h : SpelledBy c own) {sign : Char}
    (hsign : sign.toNat < 0x80) : byteOf sign ∈ own ↔ c.char = sign := by
  cases h with
  | ascii small =>
      rw [List.mem_singleton]
      constructor
      · intro hsame
        have hnat := congrArg UInt8.toNat hsame
        rw [toNat_byteOf hsign, toNat_byteOf small] at hnat
        exact Char.toNat_inj.mp hnat.symm
      · rintro rfl
        rfl
  | beyond large all =>
      constructor
      · intro hmem
        have := all _ hmem
        rw [toNat_byteOf hsign] at this
        omega
      · rintro rfl
        omega

theorem SpelledBy.eq_byteOf {c : Cell} {own : List UInt8} (h : SpelledBy c own)
    (small : c.char.toNat < 0x80) : own = [byteOf c.char] := by
  cases h with
  | ascii => rfl
  | beyond large _ => omega

theorem SpelledBy.beyond_of_far {c : Cell} {own : List UInt8} (h : SpelledBy c own) (hfar : c.far) :
    0x80 ≤ c.char.toNat := by
  cases h with
  | ascii _ _ near => exact absurd hfar (by simp [near])
  | beyond large _ => exact large

section

variable {e : Ending} {size : Nat}

/-- Some characters stand in some bytes, of which the first one has an offset. Bytes behind the
place where the characters end do not count. -/
inductive Spells (e : Ending) (size : Nat) : Nat → List Cell → List UInt8 → Prop
  | nil {offset : Nat} {bytes : List UInt8} (ends : nextOffset size e [] = offset) :
      Spells e size offset [] bytes
  | cons {c : Cell} {own : List UInt8} {cs : List Cell} {more : List UInt8}
      (spelled : SpelledBy c own) (rest : Spells e size (c.offset + own.length) cs more) :
      Spells e size c.offset (c :: cs) (own ++ more)

theorem Spells.nextOffset_eq {offset : Nat} {cs : List Cell} {bytes : List UInt8}
    (h : Spells e size offset cs bytes) : nextOffset size e cs = offset := by
  cases h with
  | nil ends => exact ends
  | cons => rfl

/-- What some characters leave of those that stand in some bytes stands in the bytes behind. -/
theorem Spells.of_suffix {offset : Nat} {cs rest : List Cell} {bytes : List UInt8}
    (h : Spells e size offset cs bytes) (hrest : rest <:+ cs) :
    ∃ used more, bytes = used ++ more ∧ Spells e size (offset + used.length) rest more := by
  induction h with
  | nil ends =>
      rw [List.suffix_nil.mp hrest]
      exact ⟨[], _, rfl, .nil ends⟩
  | @cons c own cs more spelled rest ih =>
      obtain rfl | hrest := List.suffix_cons_iff.mp hrest
      · exact ⟨[], _, rfl, .cons spelled rest⟩
      · obtain ⟨used, more', rfl, hspells⟩ := ih hrest
        refine ⟨own ++ used, more', (List.append_assoc ..).symm, ?_⟩
        rwa [List.length_append, ← Nat.add_assoc]

theorem Spells.beyond_of_far {offset : Nat} {cs : List Cell} {bytes : List UInt8}
    (h : Spells e size offset cs bytes) : ∀ c ∈ cs, c.far → 0x80 ≤ c.char.toNat := by
  induction h with
  | nil => exact fun c hc => absurd hc List.not_mem_nil
  | cons spelled _ ih => exact List.forall_mem_cons.mpr ⟨spelled.beyond_of_far, ih⟩

end

/-! ### Encodings -/

theorem toNat_ofNat_of_isValidChar {n : Nat} (h : n.isValidChar) : (Char.ofNat n).toNat = n := by
  rw [Char.ofNat, dif_pos h]
  rfl

theorem toNat_ofNat_toNat (b : UInt8) : (Char.ofNat b.toNat).toNat = b.toNat :=
  toNat_ofNat_of_isValidChar (.inl (Nat.lt_trans b.toNat_lt (by decide)))

theorem SpelledBy.of_byte {c : Cell} {b : UInt8} (hchar : c.char = Char.ofNat b.toNat)
    (small : b.toNat < 0x80) (role : c.role = .ofChar c.char) (near : c.far = false) :
    SpelledBy c [b] := by
  have hnat : c.char.toNat = b.toNat := by rw [hchar, toNat_ofNat_toNat]
  have hbyte : byteOf c.char = b := by rw [byteOf, hnat, Nat.toUInt8_eq, UInt8.ofNat_toNat]
  have h : SpelledBy c [byteOf c.char] := .ascii (hnat ▸ small) role near
  rwa [hbyte] at h

/-- What is read from bytes is what stands in them. -/
def Spelled (size : Nat) (r : List Cell × Ending) (offset : Nat) (bytes : List UInt8) : Prop :=
  Spells r.2 size offset r.1 bytes

theorem Spelled.push {size : Nat} {c : Cell} {own bytes : List UInt8} {r : List Cell × Ending}
    (hown : SpelledBy c own) (h : Spelled size r (c.offset + own.length) bytes) :
    Spelled size (Encoding.push c r) c.offset (own ++ bytes) :=
  .cons hown h

theorem Spelled.emit {size n start : Nat} {own bytes : List UInt8} {r : List Cell × Ending}
    (hown : SpelledBy (.ofChar (Char.ofNat n) start) own)
    (h : Spelled size r (start + own.length) bytes) :
    Spelled size (Encoding.emit n start r) start (own ++ bytes) := by
  rw [Encoding.emit]
  split
  · exact .nil rfl
  · exact .push hown h

/-- The bytes are read as their characters in UTF-8, also behind the first bytes of one. -/
structure Utf8Spelled (bytes : List UInt8) : Prop where
  fresh : ∀ offset,
    Spelled (offset + bytes.length) (Encoding.utf8Cells none offset bytes) offset bytes
  pending : ∀ (p : Pending) (missing start offset : Nat) (b : UInt8) (before : List UInt8),
    p.Sound missing → (∀ d ∈ b :: before, 0x80 ≤ d.toNat) →
    start + (b :: before).length = offset →
    Spelled (offset + bytes.length) (Encoding.utf8Cells (some (p, start)) offset bytes) start
      ((b :: before) ++ bytes)

namespace Utf8Spelled

variable {bytes : List UInt8} (h : Utf8Spelled bytes) (d : UInt8)

theorem length_cons (offset : Nat) :
    offset + (d :: bytes).length = offset + 1 + bytes.length := by
  rw [List.length_cons, Nat.add_comm bytes.length, Nat.add_assoc]

include h

/-- A byte that begins a character. -/
theorem lead (offset : Nat) :
    Spelled (offset + 1 + bytes.length) (Encoding.utf8Cells none offset (d :: bytes)) offset
      (d :: bytes) := by
  rw [Encoding.utf8Cells]
  cases hlead : Lead.ofByte d with
  | whole c =>
      obtain ⟨hsmall, rfl⟩ := Lead.whole_of_ofByte hlead
      have hnear : (Cell.ofChar (Char.ofNat d.toNat) offset).far = false := by
        simpa [Cell.ofChar, toNat_ofNat_toNat] using hsmall
      dsimp only
      rw [toNat_ofNat_toNat]
      exact Spelled.emit (.of_byte rfl hsmall rfl hnear) (h.fresh (offset + 1))
  | opens p =>
      obtain ⟨missing, hsound⟩ := Lead.sound_of_ofByte hlead
      have hbeyond := Lead.beyond_of_ofByte hlead
      exact h.pending p missing offset (offset + 1) d [] hsound (by simpa using hbeyond) rfl
  | invalid =>
      dsimp only
      split <;> exact .nil rfl

/-- A byte that goes on with a character, or ends it. -/
theorem follow {p : Pending} {missing start offset : Nat} {b : UInt8} {before : List UInt8}
    (sound : p.Sound missing) (beyond : ∀ x ∈ b :: before, 0x80 ≤ x.toNat)
    (hlength : start + (b :: before).length = offset) :
    Spelled (offset + 1 + bytes.length) (Encoding.utf8Cells (some (p, start)) offset (d :: bytes))
      start ((b :: before) ++ d :: bytes) := by
  rw [Encoding.utf8Cells]
  have hbefore : b :: before ++ d :: bytes = (b :: (before ++ [d])) ++ bytes := by simp
  rw [hbefore]
  split
  case isFalse => split <;> exact .nil rfl
  case isTrue haccepts =>
    have hd : 0x80 ≤ d.toNat := sound.low.trans (Pending.accepts_iff.mp haccepts).1
    have hall : ∀ x ∈ b :: (before ++ [d]), 0x80 ≤ x.toNat := by
      rw [← List.cons_append]
      exact List.forall_mem_append.mpr ⟨beyond, List.forall_mem_singleton.mpr hd⟩
    have hnext : start + (b :: (before ++ [d])).length = offset + 1 := by
      rw [← List.cons_append, List.length_append, ← Nat.add_assoc, hlength]
      rfl
    cases missing with
    | zero =>
        obtain ⟨hlarge, hvalid⟩ := sound.isValidChar haccepts
        rw [if_pos sound.count.le]
        have hchar : 0x80 ≤ (Cell.ofChar (Char.ofNat (p.bitsWith d)) start).char.toNat := by
          rwa [Cell.ofChar, toNat_ofNat_of_isValidChar hvalid]
        refine Spelled.emit (.beyond hchar hall) ?_
        rw [hnext]
        exact h.fresh (offset + 1)
    | succ missing =>
        have hmore : ¬ p.missing ≤ 1 := by
          have := sound.count
          omega
        rw [if_neg hmore]
        exact h.pending _ missing start (offset + 1) b (before ++ [d]) (sound.next haccepts) hall
          hnext

end Utf8Spelled

theorem utf8Spelled (bytes : List UInt8) : Utf8Spelled bytes := by
  induction bytes with
  | nil => exact ⟨fun _ => .nil rfl, fun _ _ _ _ _ _ _ _ _ => .nil rfl⟩
  | cons d bytes ih =>
      constructor
      · intro offset
        rw [Utf8Spelled.length_cons]
        exact ih.lead d offset
      · intro p missing start offset b before sound beyond hlength
        rw [Utf8Spelled.length_cons]
        exact ih.follow d sound beyond hlength

/-- Bytes that are characters are read as they are. -/
theorem spelled_byteCells (limit : Nat) (offset : Nat) (bytes : List UInt8) :
    Spelled (offset + bytes.length) (Encoding.byteCells limit offset bytes) offset bytes := by
  induction bytes generalizing offset with
  | nil => exact .nil rfl
  | cons d bytes ih =>
      rw [List.length_cons, Nat.add_comm bytes.length, ← Nat.add_assoc, Encoding.byteCells]
      split
      · exact .nil rfl
      · have hspelled :
            SpelledBy ⟨Char.ofNat d.toNat, offset, Encoding.latin1Role d.toNat, false⟩ [d] := by
          by_cases hsmall : d.toNat < 0x80
          · exact .of_byte rfl hsmall (by rw [Encoding.latin1Role, if_neg (by omega)]) rfl
          · exact .beyond (by simpa [toNat_ofNat_toNat] using hsmall) (by simpa using hsmall)
        exact .push hspelled (ih (offset + 1))

theorem spelled_pageCells (p : CodePage) (offset : Nat) (bytes : List UInt8) :
    Spelled (offset + bytes.length) (Encoding.pageCells p offset bytes) offset bytes := by
  induction bytes generalizing offset with
  | nil => exact .nil rfl
  | cons d bytes ih =>
      rw [List.length_cons, Nat.add_comm bytes.length, ← Nat.add_assoc, Encoding.pageCells]
      cases hc : p.char? d with
      | none => exact .nil rfl
      | some c =>
          have hclass := p.ascii_or_beyond hc
          have hspelled : SpelledBy ⟨c, offset, .ofChar c, false⟩ [d] := by
            split at hclass
            · next hsmall => exact .of_byte (by rw [← hclass, Char.ofNat_toNat]) hsmall rfl rfl
            · next hlarge => exact .beyond hclass (by simpa using hlarge)
          dsimp only
          split
          · exact .nil rfl
          · exact .push hspelled (ih (offset + 1))

/-- The characters of a document stand in its bytes, unless it is in UTF-16. -/
theorem spells_input {encoding : Encoding} (narrow : encoding.sameUnits .utf8) (offset : Nat)
    (bytes : List UInt8) :
    Spells (encoding.input offset bytes).ending (encoding.input offset bytes).size offset
      (encoding.input offset bytes).cells bytes := by
  cases encoding with
  | utf8 => exact (utf8Spelled bytes).fresh offset
  | latin1 => exact spelled_byteCells 0xFF offset bytes
  | ascii => exact spelled_byteCells 0x7F offset bytes
  | page p => exact spelled_pageCells p offset bytes
  | utf16 order => cases narrow

end Xml
end UiMarkup
