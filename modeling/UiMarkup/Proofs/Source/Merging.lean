import UiMarkup.Proofs.Source.Positions

/-!
Merging the regions of a source. A later offset has a later position, whatever the bytes before it
are, so the region that covers two others begins at the earlier of their positions as it does at the
smaller of their offsets.
-/

namespace UiMarkup

namespace Text

/-! ### The length of what is read -/

theorem length_decodeFrom_some_pos (p : Pending) (bs : List UInt8) :
    0 < (decodeFrom (some p) bs).length := by
  induction bs generalizing p with
  | nil => exact Nat.one_pos
  | cons b bs ih =>
      rw [decodeFrom]
      split
      · split
        · exact Nat.succ_pos _
        · exact ih _
      · exact Nat.succ_pos _

/-- More bytes do not read as fewer characters. -/
theorem length_decodeFrom_le_append (q : Option Pending) (a b : List UInt8) :
    (decodeFrom q a).length ≤ (decodeFrom q (a ++ b)).length := by
  induction a generalizing q with
  | nil =>
      rw [decodeFrom_nil, List.nil_append]
      cases q with
      | none => exact Nat.zero_le _
      | some p => exact length_decodeFrom_some_pos p b
  | cons c a ih =>
      rw [List.cons_append, decodeFrom_cons, decodeFrom_cons q c (a ++ b), List.length_append,
        List.length_append]
      exact Nat.add_le_add_left (ih _) _

end Text

theorem Span.notAfter_iff (s t : Span) :
    s.notAfter t = true ↔ toLex (s.line, s.column) ≤ toLex (t.line, t.column) := by
  simp [notAfter, Prod.Lex.toLex_le_toLex]

namespace SourceMap

variable (m : SourceMap)

/-! ### Positions in order -/

/-- Along a line, what stands before an offset only grows. -/
theorem linePrefix_append {a b : Nat} {piece : List UInt8}
    (h : m.bytes.take b = m.bytes.take a ++ piece) (hpiece : lineFeed ∉ piece) :
    m.linePrefix b = m.linePrefix a ++ piece := by
  have hline : ∀ c ∈ piece.reverse, (c != lineFeed) = true := by
    intro c hc
    rw [bne_iff_ne]
    intro heq
    exact hpiece (heq ▸ List.mem_reverse.mp hc)
  rw [linePrefix, linePrefix, h, List.reverse_append, List.takeWhile_append_of_pos hline,
    List.reverse_append, List.reverse_reverse]

theorem lineColumn_mono {a b : Int} (h : a ≤ b) :
    toLex (m.lineColumn a) ≤ toLex (m.lineColumn b) := by
  have hle : min a.toNat m.size ≤ min b.toNat m.size := by omega
  simp only [lineColumn]
  generalize min a.toNat m.size = o at hle
  generalize min b.toNat m.size = p at hle
  obtain ⟨piece, hpiece⟩ : m.bytes.take o <+: m.bytes.take p := List.take_prefix_take_left hle
  rw [Prod.Lex.toLex_le_toLex, ← hpiece, List.count_append]
  -- a line feed in between makes it a later line, and without one the column can only grow
  by_cases hmem : lineFeed ∈ piece
  · have hcount : 0 < piece.count lineFeed := List.count_pos_iff.mpr hmem
    left
    push_cast
    omega
  · have hlength := Text.length_decodeFrom_le_append none (m.linePrefix o) piece
    rw [← m.linePrefix_append hpiece.symm hmem] at hlength
    right
    rw [List.count_eq_zero.mpr hmem]
    refine ⟨by simp, ?_⟩
    change ((Text.decodeFrom none (m.linePrefix o)).length : Int) + 1 ≤
      (Text.decodeFrom none (m.linePrefix p)).length + 1
    omega

/-! ### Regions -/

theorem span_position (a b : Int) : ((m.span a b).line, (m.span a b).column) = m.lineColumn a := rfl

theorem notAfter_span_iff (a b c d : Int) :
    (m.span a b).notAfter (m.span c d) = true ↔ toLex (m.lineColumn a) ≤ toLex (m.lineColumn c) :=
  Span.notAfter_iff _ _

theorem span_eq {a c : Int} (h : m.lineColumn a = m.lineColumn c) (b : Int) :
    m.span a b = ⟨a, b, (m.lineColumn c).1, (m.lineColumn c).2⟩ := by
  rw [← h]
  rfl

/-- The region over two others is the one from the smaller of their starts to the
larger of their ends. -/
theorem merge_span (a b c d : Int) :
    (m.span a b).merge (m.span c d) = m.span (min a c) (max b d) := by
  rw [Span.merge]
  by_cases hfirst : toLex (m.lineColumn a) ≤ toLex (m.lineColumn c)
  · rw [if_pos ((m.notAfter_span_iff a b c d).mpr hfirst)]
    have hposition : m.lineColumn (min a c) = m.lineColumn a := by
      obtain hac | hca := le_total a c
      · rw [min_eq_left hac]
      · rw [min_eq_right hca]
        exact toLex.injective (le_antisymm (m.lineColumn_mono hca) hfirst)
    exact (m.span_eq hposition _).symm
  · rw [if_neg ((m.notAfter_span_iff a b c d).not.mpr hfirst)]
    have hca : c ≤ a := le_of_not_ge fun hac => hfirst (m.lineColumn_mono hac)
    have hposition : m.lineColumn (min a c) = m.lineColumn c := by rw [min_eq_right hca]
    exact (m.span_eq hposition _).symm

/-- Merging the regions of a source takes the smaller start and the larger end, and so it is
commutative, associative and idempotent and leads to the position of the start. The offsets may be
any: within a character, too, and outside the source. -/
theorem merge_spans (m : SourceMap) (a b c d : Int) :
    (m.span a b).merge (m.span c d) = m.span (min a c) (max b d) ∧
    (m.span a b).merge (m.span c d) = (m.span c d).merge (m.span a b) ∧
    (∀ e f, ((m.span a b).merge (m.span c d)).merge (m.span e f) =
      (m.span a b).merge ((m.span c d).merge (m.span e f))) ∧
    (m.span a b).merge (m.span a b) = m.span a b ∧
    (((m.span a b).merge (m.span c d)).line, ((m.span a b).merge (m.span c d)).column) =
      m.lineColumn ((m.span a b).merge (m.span c d)).start := by
  refine ⟨m.merge_span a b c d, ?_, ?_, Span.merge_self _, ?_⟩
  · rw [merge_span, merge_span, min_comm, max_comm]
  · intro e f
    rw [merge_span, merge_span, merge_span, merge_span, min_assoc, max_assoc]
  · rw [merge_span, span_position]
    rfl

/-- A region that begins on the second line and one that begins with a letter of
two bytes on the first. -/
example : ((ofText "aé\n→b".toList).span 4 7).merge ((ofText "aé\n→b".toList).span 1 3) =
    ⟨1, 7, 1, 2⟩ := by
  decide

end SourceMap
end UiMarkup
