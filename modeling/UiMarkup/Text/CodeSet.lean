/-!
Sets of characters given by closed intervals of code points. The tables of the character classes
are values of this type. White space is the characters with the Unicode property White_Space or a
separating bidirectional class, which includes the four information separators.
-/

namespace UiMarkup.Text

/-- A set of characters, as a list of closed intervals of code points. -/
structure CodeSet where
  ranges : List (Nat × Nat)

namespace CodeSet

/-- Some interval holds the character's code point. -/
def contains (s : CodeSet) (c : Char) : Bool :=
  s.ranges.any fun r => r.1 ≤ c.toNat && c.toNat ≤ r.2

theorem contains_iff {s : CodeSet} {c : Char} :
    s.contains c = true ↔ ∃ r ∈ s.ranges, r.1 ≤ c.toNat ∧ c.toNat ≤ r.2 := by
  simp [contains]

end CodeSet

/-! ### White space -/

def blanks : CodeSet := ⟨[
  (0x9, 0xD), (0x1C, 0x20), (0x85, 0x85), (0xA0, 0xA0), (0x1680, 0x1680), (0x2000, 0x200A),
  (0x2028, 0x2029), (0x202F, 0x202F), (0x205F, 0x205F), (0x3000, 0x3000)]⟩

def isBlank (c : Char) : Bool := blanks.contains c

theorem isBlank_of_isWhitespace {c : Char} (h : c.isWhitespace = true) : isBlank c = true := by
  simp only [Char.isWhitespace, Bool.or_eq_true, decide_eq_true_eq] at h
  rcases h with ((rfl | rfl) | rfl) | rfl <;> decide

end UiMarkup.Text
