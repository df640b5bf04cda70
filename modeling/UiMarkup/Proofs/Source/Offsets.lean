import UiMarkup.Proofs.Source.Lines
import UiMarkup.Proofs.Source.Positions

/-!
Offsets and positions of a text. The line and column of an offset between two characters lead
back to it, and so does the offset of a place on a line to its line and column. Positions come in
the order of their offsets.
-/

namespace UiMarkup

open SourceMap (lineFeed)

namespace Text

/-- The offset is between two characters of the text or at one of its ends. -/
def IsBoundary (text : List Char) (offset : Nat) : Prop :=
  ∃ before after, text = before ++ after ∧ offset = utf8Length before

/-- The text consists of as many lines, each with its line feed. -/
inductive WholeLines : Nat → List Char → Prop
  | none : WholeLines 0 []
  | line {n : Nat} {a b : List Char} (whole : '\n' ∉ a) (more : WholeLines n b) :
      WholeLines (n + 1) (a ++ '\n' :: b)

/-- Any text is whole lines and what stands on the line behind them. -/
theorem exists_wholeLines (cs : List Char) :
    ∃ n above left, cs = above ++ left ∧ WholeLines n above ∧ '\n' ∉ left := by
  induction cs with
  | nil => exact ⟨0, [], [], rfl, .none, List.not_mem_nil⟩
  | cons c cs ih =>
      obtain ⟨n, above, left, rfl, habove, hleft⟩ := ih
      by_cases hc : c = '\n'
      · subst hc
        exact ⟨n + 1, [] ++ '\n' :: above, left, rfl, .line List.not_mem_nil habove, hleft⟩
      · have apart {a : List Char} (ha : '\n' ∉ a) : '\n' ∉ c :: a := by
          rw [List.mem_cons, not_or]
          exact ⟨Ne.symm hc, ha⟩
        cases habove with
        | none => exact ⟨0, [], c :: left, rfl, .none, apart hleft⟩
        | @line n a b whole more =>
            exact ⟨n + 1, (c :: a) ++ '\n' :: b, left, by simp, .line (apart whole) more, hleft⟩

namespace WholeLines

variable {n : Nat} {above left : List Char}

theorem count_eq (h : WholeLines n above) : above.count '\n' = n := by
  induction h with
  | none => rfl
  | line whole _ ih =>
      rw [List.count_append, List.count_cons_self, List.count_eq_zero.mpr whole, ih, Nat.zero_add]

theorem columnAfterBreak_append (h : WholeLines n above) (hleft : '\n' ∉ left) :
    ValuePlace.columnAfterBreak (above ++ left) = left.length + 1 := by
  induction h with
  | none => exact (ValuePlace.columnAfterBreak_append hleft []).trans (Nat.add_comm 1 _)
  | line _ _ ih => rw [List.append_assoc, List.cons_append, ValuePlace.columnAfterBreak_newline, ih]

end WholeLines

/-- What stands before a line of a text. -/
theorem Lined.exists_above {text l : List Char} {ls : List (List Char)} {n : Nat}
    (h : Lined text ls) (hl : ls[n]? = some l) :
    ∃ above right, text = above ++ (l ++ right) ∧ WholeLines n above ∧ '\n' ∉ l := by
  induction h generalizing n with
  | @last a whole =>
      obtain ⟨rfl, rfl⟩ : n = 0 ∧ a = l := by simpa [List.getElem?_singleton] using hl
      exact ⟨[], [], (List.append_nil a).symm, .none, whole⟩
  | @line a b ls whole more ih =>
      cases n with
      | zero =>
          obtain rfl : a = l := by simpa using hl
          exact ⟨[], '\n' :: b, rfl, .none, whole⟩
      | succ n =>
          obtain ⟨above, right, rfl, habove, hline⟩ := ih hl
          exact ⟨a ++ '\n' :: above, right, by simp, .line whole habove, hline⟩

end Text

open Text

namespace SourceMap

/-! ### Lines of a source -/

theorem lines_ofText_newline {a : List Char} (h : '\n' ∉ a) (b : List Char) :
    (ofText (a ++ '\n' :: b)).lines = a :: (ofText b).lines := by
  have hbytes : encodeUtf8 (a ++ '\n' :: b) = encodeUtf8 a ++ lineFeed :: encodeUtf8 b :=
    encodeUtf8_append _ _
  rw [lines, ofText, hbytes, List.splitOn_append_cons_self,
    List.splitOn_eq_singleton (lineFeed_mem_encodeUtf8_iff.not.mpr h)]
  simp [lines, ofText, decodeUtf8_encodeUtf8]

theorem lines_ofText_single {a : List Char} (h : '\n' ∉ a) : (ofText a).lines = [a] := by
  rw [lines, ofText, List.splitOn_eq_singleton (lineFeed_mem_encodeUtf8_iff.not.mpr h)]
  simp [decodeUtf8_encodeUtf8]

/-- The line that begins behind whole lines. -/
theorem exists_line {n : Nat} {above left : List Char} (h : WholeLines n above)
    (hleft : '\n' ∉ left) (right : List Char) :
    ∃ l, (ofText (above ++ (left ++ right))).lines[n]? = some l ∧ left.length ≤ l.length := by
  induction h with
  | none =>
      by_cases hright : '\n' ∈ right
      · obtain ⟨a, b, rfl, ha⟩ := List.eq_append_cons_of_mem hright
        have whole : '\n' ∉ left ++ a := by simp [hleft, ha]
        refine ⟨left ++ a, ?_, by simp⟩
        rw [List.nil_append, ← List.append_assoc, lines_ofText_newline whole]
        rfl
      · have whole : '\n' ∉ left ++ right := by simp [hleft, hright]
        refine ⟨left ++ right, ?_, by simp⟩
        rw [List.nil_append, lines_ofText_single whole]
        rfl
  | line whole _ ih =>
      rw [List.append_assoc, List.cons_append, lines_ofText_newline whole]
      exact ih

theorem lineStart_newline {a : List UInt8} (h : lineFeed ∉ a) (n : Nat) (b : List UInt8) :
    lineStart (n + 1) (a ++ lineFeed :: b) = a.length + 1 + lineStart n b := by
  induction a with
  | nil => rfl
  | cons c a ih =>
      obtain ⟨hc, ha⟩ := not_or.mp (List.mem_cons.not.mp h)
      rw [List.cons_append, lineStart, if_neg (Ne.symm hc), ih ha, List.length_cons]
      omega

/-- A line begins where those before it end. -/
theorem lineStart_ofText {n : Nat} {above : List Char} (h : WholeLines n above) (rest : List Char) :
    lineStart n (encodeUtf8 (above ++ rest)) = utf8Length above := by
  induction h with
  | none => cases encodeUtf8 ([] ++ rest) <;> rfl
  | @line n a b whole _ ih =>
      have hbytes : encodeUtf8 (a ++ '\n' :: b ++ rest) =
          encodeUtf8 a ++ lineFeed :: encodeUtf8 (b ++ rest) := by
        rw [List.append_assoc, List.cons_append, encodeUtf8_append]
        rfl
      rw [hbytes, lineStart_newline (lineFeed_mem_encodeUtf8_iff.not.mpr whole), ih,
        length_encodeUtf8, utf8Length_append, utf8Length_cons, Nat.add_assoc]
      rfl

theorem lineBytes_append {a : List UInt8} (h : lineFeed ∉ a) (b : List UInt8) :
    lineBytes (a ++ b) = a ++ lineBytes b := by
  have hline : ∀ c ∈ a, (c != lineFeed) = true := by
    rintro c hc
    rw [bne_iff_ne]
    rintro rfl
    exact h hc
  rw [lineBytes, List.takeWhile_append_of_pos hline, List.dropWhile_append_of_pos hline,
    List.append_assoc, lineBytes]

/-! ### There and back -/

variable {n : Nat} {above left : List Char}

/-- The position of an offset that is some characters behind whole lines. -/
theorem lineColumn_behind (h : WholeLines n above) (hleft : '\n' ∉ left) (right : List Char) :
    (ofText (above ++ (left ++ right))).lineColumn (utf8Length (above ++ left)) =
      ((n + 1 : Int), (left.length + 1 : Int)) := by
  rw [← List.append_assoc, lineColumn_ofText, List.count_append, h.count_eq,
    List.count_eq_zero.mpr hleft, h.columnAfterBreak_append hleft]
  push_cast
  rfl

theorem offsetOf_behind (h : WholeLines n above) (hleft : '\n' ∉ left) (right : List Char) :
    (ofText (above ++ (left ++ right))).offsetOf (n + 1) left.length =
      utf8Length (above ++ left) := by
  obtain ⟨m, hm⟩ : ∃ m, m = ofText (above ++ (left ++ right)) := ⟨_, rfl⟩
  have hcount : n ≤ m.bytes.count lineFeed := by
    rw [hm, ofText, count_lineFeed_encodeUtf8, List.count_append, h.count_eq]
    omega
  have hindex : min ((n : Int) + 1 - 1).toNat (m.bytes.count lineFeed) = n := by omega
  have hstart : lineStart n m.bytes = utf8Length above := hm ▸ lineStart_ofText h (left ++ right)
  have hrest : m.bytes.drop (utf8Length above) = encodeUtf8 left ++ encodeUtf8 right := by
    rw [hm, ofText, encodeUtf8_append, ← length_encodeUtf8, List.drop_left, encodeUtf8_append]
  have hline : decodeUtf8 (lineBytes (encodeUtf8 left ++ encodeUtf8 right)) =
      left ++ decodeUtf8 (lineBytes (encodeUtf8 right)) := by
    rw [lineBytes_append (lineFeed_mem_encodeUtf8_iff.not.mpr hleft), decodeUtf8_encodeUtf8_append]
  simp only [← hm, offsetOf]
  rw [hindex, hstart, hrest, hline, firstChars, if_pos (by omega), Int.toNat_natCast,
    List.take_left, utf8Length_append]
  push_cast
  rfl

/-- The line and column are those of a character of a line or of the end of one. -/
def IsPosition (m : SourceMap) (line column : Int) : Prop :=
  ∃ (n c : Nat) (l : List Char), m.lines[n]? = some l ∧ c ≤ l.length ∧ line = n + 1 ∧ column = c + 1

theorem lineColumn_lt {before piece : List Char} (hpiece : piece ≠ []) (after : List Char) :
    toLex ((ofText (before ++ (piece ++ after))).lineColumn (utf8Length before)) <
      toLex ((ofText (before ++ (piece ++ after))).lineColumn (utf8Length (before ++ piece))) := by
  have hlast := lineColumn_ofText (before ++ piece) after
  rw [List.append_assoc] at hlast
  rw [lineColumn_ofText, hlast, Prod.Lex.toLex_lt_toLex, List.count_append]
  by_cases hmem : '\n' ∈ piece
  · have hcount : 0 < piece.count '\n' := List.count_pos_iff.mpr hmem
    left
    push_cast
    omega
  · have hlength : 0 < piece.length := List.length_pos_iff.mpr hpiece
    right
    rw [ValuePlace.columnAfterBreak_append hmem, List.count_eq_zero.mpr hmem]
    push_cast
    omega

/-- Offsets between characters and positions on lines are the same thing
twice, in the same order. -/
theorem offsetOf_inverts_lineColumn (text : List Char) :
    (∀ o : Nat, IsBoundary text o →
      (ofText text).IsPosition ((ofText text).lineColumn o).1 ((ofText text).lineColumn o).2 ∧
      (ofText text).offsetOf ((ofText text).lineColumn o).1 (((ofText text).lineColumn o).2 - 1) =
        o) ∧
    (∀ (n : Nat) (l : List Char), (ofText text).lines[n]? = some l → ∀ c : Nat, c ≤ l.length →
      (∃ o : Nat, IsBoundary text o ∧ (ofText text).offsetOf (n + 1) c = o) ∧
      (ofText text).lineColumn ((ofText text).offsetOf (n + 1) c) =
        ((n + 1 : Int), (c + 1 : Int))) ∧
    ∀ o p : Nat, IsBoundary text o → IsBoundary text p → o < p →
      toLex ((ofText text).lineColumn o) < toLex ((ofText text).lineColumn p) := by
  refine ⟨?_, ?_, ?_⟩
  · rintro _ ⟨before, right, rfl, rfl⟩
    obtain ⟨n, above, left, rfl, habove, hleft⟩ := exists_wholeLines before
    obtain ⟨l, hl, hlength⟩ := exists_line habove hleft right
    rw [List.append_assoc, lineColumn_behind habove hleft]
    refine ⟨⟨n, left.length, l, hl, hlength, rfl, rfl⟩, ?_⟩
    rw [add_sub_cancel_right]
    exact offsetOf_behind habove hleft right
  · intro n l hl c hc
    obtain ⟨above, right, htext, habove, hline⟩ := (ofText text).lined.exists_above hl
    obtain rfl : text = above ++ (l.take c ++ (l.drop c ++ right)) := by
      rw [← List.append_assoc (l.take c), List.take_append_drop, ← htext]
      exact (decodeUtf8_encodeUtf8 text).symm
    have hleft : '\n' ∉ l.take c := fun hmem => hline (List.mem_of_mem_take hmem)
    have hlength : (l.take c).length = c := List.length_take_of_le hc
    have hoffset := offsetOf_behind habove hleft (l.drop c ++ right)
    have hposition := lineColumn_behind habove hleft (l.drop c ++ right)
    rw [hlength] at hoffset hposition
    rw [hoffset]
    exact ⟨⟨_, ⟨above ++ l.take c, l.drop c ++ right, (List.append_assoc ..).symm, rfl⟩, rfl⟩,
      hposition⟩
  · rintro _ _ ⟨before, after, rfl, rfl⟩ ⟨before', after', htext, rfl⟩ hlt
    obtain ⟨piece, rfl, rfl⟩ | ⟨piece, rfl, -⟩ := List.append_eq_append_iff.mp htext
    · refine lineColumn_lt ?_ after'
      rintro rfl
      simp at hlt
    · rw [utf8Length_append] at hlt
      omega

/-- Lines with letters of several bytes, and an empty one. -/
def accented : List Char := "é\n\n→b".toList

theorem offsetOf_inverts_lineColumn_accented :
    (IsBoundary accented 7 ∧ (ofText accented).offsetOf ((ofText accented).lineColumn 7).1
      (((ofText accented).lineColumn 7).2 - 1) = 7) ∧
    ((ofText accented).lines[2]? = some ['→', 'b'] ∧
      (ofText accented).lineColumn ((ofText accented).offsetOf 3 2) = (3, 3)) ∧
    (IsBoundary accented 3 ∧
      toLex ((ofText accented).lineColumn 3) < toLex ((ofText accented).lineColumn 7)) := by
  have hthird : IsBoundary accented 3 := ⟨['é', '\n'], ['\n', '→', 'b'], rfl, by decide⟩
  have hseventh : IsBoundary accented 7 := ⟨['é', '\n', '\n', '→'], ['b'], rfl, by decide⟩
  have htext : accented = ['é'] ++ '\n' :: ([] ++ '\n' :: ['→', 'b']) := rfl
  have hlines : (ofText accented).lines = [['é'], [], ['→', 'b']] := by
    rw [htext, lines_ofText_newline (by decide), lines_ofText_newline (by decide),
      lines_ofText_single (by decide)]
  have hline : (ofText accented).lines[2]? = some ['→', 'b'] := congrArg (·[2]?) hlines
  obtain ⟨hback, hthere, hmono⟩ := offsetOf_inverts_lineColumn accented
  exact ⟨⟨hseventh, (hback 7 hseventh).2⟩, ⟨hline, (hthere 2 _ hline 2 le_rfl).2⟩, hthird,
    hmono 3 7 hthird hseventh (by decide)⟩

end SourceMap
end UiMarkup
