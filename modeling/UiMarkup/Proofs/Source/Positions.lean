import UiMarkup.Proofs.Text.Utf8
import UiMarkup.Widget.Value

/-!
Positions in a text. The line and column that the bytes of a source give for an offset are
those that its characters give: one line for each line feed before it, and one column for
each character on its line.
-/

namespace UiMarkup

namespace Text

open SourceMap (lineFeed)

theorem count_lineFeed_encodeUtf8 (cs : List Char) :
    (encodeUtf8 cs).count lineFeed = cs.count '\n' := by
  induction cs with
  | nil => rfl
  | cons c cs ih =>
      have hchar : (encodeUtf8 [c]).count lineFeed = [c].count '\n' := by
        by_cases hc : c = '\n'
        · subst hc
          rfl
        · rw [List.count_eq_zero.mpr (lineFeed_mem_encodeUtf8_iff.not.mpr _),
            List.count_eq_zero.mpr _]
          all_goals simpa using Ne.symm hc
      rw [← List.singleton_append, encodeUtf8_append, List.count_append,
        List.count_append, hchar, ih]

end Text

open Text

namespace ValuePlace

/-- Along a line, each character takes one column. -/
theorem columnAfterBreak_append {piece : List Char} (h : '\n' ∉ piece) (before : List Char) :
    columnAfterBreak (before ++ piece) = columnAfterBreak before + piece.length := by
  have hline : ∀ c ∈ piece.reverse, (c != '\n') = true := by
    intro c hc
    rw [bne_iff_ne]
    rintro rfl
    exact h (List.mem_reverse.mp hc)
  rw [columnAfterBreak, columnAfterBreak, List.reverse_append, List.takeWhile_append_of_pos hline,
    List.length_append, List.length_reverse]
  omega

/-- A line feed begins to count anew. -/
theorem columnAfterBreak_newline (a b : List Char) :
    columnAfterBreak (a ++ '\n' :: b) = columnAfterBreak b := by
  have hreverse : (a ++ '\n' :: b).reverse = b.reverse ++ '\n' :: a.reverse := by simp
  have htake : (b.reverse ++ '\n' :: a.reverse).takeWhile (· != '\n') =
      b.reverse.takeWhile (· != '\n') := by
    rw [List.takeWhile_append]
    split
    · next hall =>
      rw [(List.takeWhile_prefix _).eq_of_length hall]
      exact List.append_nil _
    · rfl
  rw [columnAfterBreak, hreverse, htake, columnAfterBreak]

end ValuePlace

namespace SourceMap

/-- What stands before an offset on its line is the text behind the last line feed. -/
theorem takeWhile_reverse_encodeUtf8 (cs : List Char) :
    ((encodeUtf8 cs).reverse.takeWhile (· != lineFeed)).reverse =
      encodeUtf8 (cs.reverse.takeWhile (· != '\n')).reverse := by
  induction cs using List.reverseRecOn with
  | nil => rfl
  | append_singleton cs c ih =>
      rw [encodeUtf8_append, List.reverse_append, List.reverse_append, List.reverse_singleton,
        List.singleton_append]
      by_cases hc : c = '\n'
      · subst hc
        rfl
      · have hline : ∀ b ∈ (encodeUtf8 [c]).reverse, (b != lineFeed) = true := by
          rintro b hb
          rw [bne_iff_ne]
          rintro rfl
          rw [List.mem_reverse, lineFeed_mem_encodeUtf8_iff, List.mem_singleton] at hb
          exact hc hb.symm
        rw [List.takeWhile_append_of_pos hline, List.reverse_append, ih, List.reverse_reverse,
          List.takeWhile_cons_of_pos (by simpa using hc), List.reverse_cons, encodeUtf8_append]

/-- The position behind some characters of a text. -/
theorem lineColumn_ofText (before after : List Char) :
    (ofText (before ++ after)).lineColumn (utf8Length before) =
      ((before.count '\n' + 1 : Int), (ValuePlace.columnAfterBreak before : Int)) := by
  have hbytes : (ofText (before ++ after)).bytes = encodeUtf8 before ++ encodeUtf8 after :=
    encodeUtf8_append _ _
  have htake : (ofText (before ++ after)).bytes.take (utf8Length before) = encodeUtf8 before := by
    rw [hbytes, ← length_encodeUtf8, List.take_left]
  have hsize : min (utf8Length before) (ofText (before ++ after)).size = utf8Length before := by
    rw [size, hbytes, List.length_append, length_encodeUtf8]
    omega
  have hprefix : (ofText (before ++ after)).linePrefix (utf8Length before) =
      encodeUtf8 (before.reverse.takeWhile (· != '\n')).reverse := by
    rw [linePrefix, htake, takeWhile_reverse_encodeUtf8]
  simp only [lineColumn, Int.toNat_natCast]
  rw [hsize, htake, hprefix, decodeUtf8_encodeUtf8, count_lineFeed_encodeUtf8, List.length_reverse,
    ValuePlace.columnAfterBreak]
  rfl

/-- Counting columns from a place to a later one finds it exactly as long as no
line ends in between. -/
theorem columns_eq_lineColumn_iff {m : SourceMap} {before piece after : List Char}
    (h : m = ofText (before ++ (piece ++ after))) :
    ((m.lineColumn (utf8Length before)).1,
      (m.lineColumn (utf8Length before)).2 + (piece.length : Int)) =
      m.lineColumn (utf8Length (before ++ piece)) ↔ '\n' ∉ piece := by
  have hfirst := lineColumn_ofText before (piece ++ after)
  have hlast := lineColumn_ofText (before ++ piece) after
  rw [List.append_assoc] at hlast
  rw [h, hfirst, hlast, List.count_append, Prod.mk.injEq]
  constructor
  · rintro ⟨hline, -⟩
    rw [← List.count_eq_zero]
    push_cast at hline
    omega
  · intro hpiece
    rw [ValuePlace.columnAfterBreak_append hpiece, List.count_eq_zero.mpr hpiece]
    push_cast
    exact ⟨rfl, rfl⟩

end SourceMap
end UiMarkup
