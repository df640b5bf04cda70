/-!
Tags as bytes: where a tag ends, and where the values of its attributes stand.
-/

namespace UiMarkup.Tag

def doubleQuote : UInt8 := 0x22

def singleQuote : UInt8 := 0x27

def closeAngle : UInt8 := 0x3E

def equalsSign : UInt8 := 0x3D

def slash : UInt8 := 0x2F

def isQuote (b : UInt8) : Bool := b == doubleQuote || b == singleQuote

/-- The number of bytes up to the first closing angle bracket outside quotes, with
it, or up to the end. -/
def length : Option UInt8 → List UInt8 → Nat
  | _, [] => 0
  | some quote, b :: bs => 1 + length (if b = quote then none else some quote) bs
  | none, b :: bs =>
    if isQuote b then 1 + length (some b) bs
    else if b = closeAngle then 1
    else 1 + length none bs

/-- The offset just behind the tag that begins at an offset. -/
def stop (data : List UInt8) (start : Nat) : Nat := start + length none (data.drop start)

def isBlank (b : UInt8) : Bool := b == 0x20 || (0x09 ≤ b && b ≤ 0x0D)

def isNameByte (b : UInt8) : Bool := !isBlank b && b != equalsSign && b != slash && b != closeAngle

/-- The bytes of a quoted value, without the quotes, and those behind it. -/
def quotedValue? : List UInt8 → Option (List UInt8 × List UInt8)
  | q :: bs =>
    if isQuote q && bs.contains q then some (bs.takeWhile (· != q), (bs.dropWhile (· != q)).drop 1)
    else none
  | [] => none

/-- The value behind an equals sign, where blanks may stand on both sides of the sign. -/
def assigned? (bs : List UInt8) : Option (List UInt8 × List UInt8) :=
  match bs.dropWhile isBlank with
  | b :: bs => if b = equalsSign then quotedValue? (bs.dropWhile isBlank) else none
  | [] => none

theorem length_dropWhile_le (p : UInt8 → Bool) (bs : List UInt8) :
    (bs.dropWhile p).length ≤ bs.length :=
  (List.dropWhile_sublist p).length_le

theorem length_dropWhile_lt {p : UInt8 → Bool} {b : UInt8} {bs : List UInt8} (h : p b = true) :
    ((b :: bs).dropWhile p).length < (b :: bs).length := by
  simp only [List.dropWhile_cons, h, if_true, List.length_cons]
  exact Nat.lt_succ_of_le (length_dropWhile_le p bs)

theorem length_rest_of_quotedValue? {bs value rest : List UInt8}
    (h : quotedValue? bs = some (value, rest)) : rest.length ≤ bs.length := by
  cases bs with
  | nil => simp [quotedValue?] at h
  | cons q bs =>
    simp only [quotedValue?] at h
    split at h
    · simp only [Option.some.injEq, Prod.mk.injEq] at h
      obtain ⟨-, rfl⟩ := h
      have := length_dropWhile_le (· != q) bs
      simp only [List.length_drop, List.length_cons]
      omega
    · exact absurd h (by simp)

theorem length_rest_of_assigned? {bs value rest : List UInt8}
    (h : assigned? bs = some (value, rest)) : rest.length ≤ bs.length := by
  have hb := length_dropWhile_le isBlank bs
  simp only [assigned?] at h
  split at h
  · rename_i b more heq
    split at h
    · have h₁ := length_rest_of_quotedValue? h
      have h₂ := length_dropWhile_le isBlank more
      rw [heq] at hb
      simp only [List.length_cons] at hb
      omega
    · exact absurd h (by simp)
  · exact absurd h (by simp)

/-- The names of the attributes in the bytes of a tag, with the offsets of their values. -/
def valuePlaces (size : Nat) (bs : List UInt8) : List (List UInt8 × Nat) :=
  match bs with
  | [] => []
  | b :: bs =>
    if _hb : isNameByte b = true then
      let after := (b :: bs).dropWhile isNameByte
      match h : assigned? after with
      | some (value, rest) =>
        ((b :: bs).takeWhile isNameByte, size - rest.length - 1 - value.length) ::
          valuePlaces size rest
      | none => valuePlaces size after
    else valuePlaces size bs
  termination_by bs.length
  decreasing_by
  · exact Nat.lt_of_le_of_lt (length_rest_of_assigned? h) (length_dropWhile_lt _hb)
  · exact length_dropWhile_lt _hb
  · simp

end UiMarkup.Tag
