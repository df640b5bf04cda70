import UiMarkup.Proofs.Expr.ErrorOffsets
import UiMarkup.Proofs.Source.Positions
import UiMarkup.Proofs.Widget.Classification

/-!
Where the errors in the value of an attribute stand. The error of an expression is given the byte
that it stands at and a line and column, which are those of the beginning of the expression with one
column more for each character up to the error. A value has spaces where the document has line
feeds, so both name the same place as long as the document has no line feed between the beginning of
the expression and the error.
-/

namespace UiMarkup

/-! ### Blanks -/

namespace Text

/-- The character of a value is the one of the document, where a line feed or a tab
may have become a space. -/
def StandsFor (v d : Char) : Prop := v = d ∨ v = ' ' ∧ (d = '\n' ∨ d = '\t')

theorem StandsFor.utf8Size_eq {v d : Char} (h : StandsFor v d) : v.utf8Size = d.utf8Size := by
  obtain rfl | ⟨rfl, rfl | rfl⟩ := h <;> rfl

theorem utf8Length_eq_of_standsFor {value text : List Char}
    (h : List.Forall₂ StandsFor value text) : utf8Length value = utf8Length text := by
  induction h with
  | nil => rfl
  | cons hc _ ih => rw [utf8Length_cons, utf8Length_cons, hc.utf8Size_eq, ih]

theorem exists_append_of_standsFor {a b text : List Char}
    (h : List.Forall₂ StandsFor (a ++ b) text) :
    ∃ first rest, text = first ++ rest ∧ List.Forall₂ StandsFor a first ∧
      List.Forall₂ StandsFor b rest := by
  refine ⟨text.take a.length, text.drop a.length, (List.take_append_drop ..).symm, ?_, ?_⟩
  · simpa using List.forall₂_take a.length h
  · simpa using List.forall₂_drop a.length h

end Text

open Text

/-! ### Groups -/

theorem ValuePlace.eq_of_bind_eq_malformed {p : ValuePlace} {before inner : List Char}
    {err : ExprError} {span : Span} (h : p.bind before inner = .error (.malformed err span)) :
    ExprParser.parse inner = .error (.malformed err) ∧
      span = ⟨(p.after before).1 + utf8Length (inner.take err.offset),
        (p.after before).1 + utf8Length inner, (p.after before).2.1,
        (p.after before).2.2 + err.offset⟩ := by
  simp only [bind, Binding.parse] at h
  split at h
  · cases h
  · cases h
  · rename_i hparse
    cases h
    exact ⟨hparse, rfl⟩

namespace AttributeValue

/-- The error of a value is that of one of its groups, with some characters before the
group and some behind it. -/
structure Refused (value before inner after : List Char) (err : ExprError) (e : ParseError) :
    Prop where
  value : value = before ++ '\x7b' :: (inner ++ '\x7d' :: after)
  closed : '\x7d' ∉ inner
  parse : ExprParser.parse inner = .error (.malformed err)
  problem : e.problem = .expression err.problem

theorem exists_refused_of_classify {p : ValuePlace} {value : String} {e : ParseError}
    (h : classify p value = .error (.parse e)) :
    ∃ before inner after err, Refused value.toList before inner after err e ∧
      p.bind (before ++ ['\x7b']) inner = .error (.malformed err e.span) := by
  obtain ⟨hsource, hcanonical⟩ := Segment.split_spec value.toList
  rw [classify] at h
  cases hparts : partsOf p [] (Segment.split value.toList) with
  | ok parts => simp [hparts, bind, Except.bind, pure, Except.pure] at h
  | error fault =>
      obtain rfl : fault = .parse e := by simpa [hparts, bind, Except.bind] using h
      obtain ⟨a, inner, b, f, hsplit, -, hbind, hf⟩ := partsOf_error hparts
      rw [hsplit] at hsource hcanonical
      cases f with
      | number fault => cases hf
      | malformed err span =>
          obtain rfl : e = ⟨.expression err.problem, span⟩ := ReadFault.parse.inj hf
          obtain ⟨hparse, -⟩ := ValuePlace.eq_of_bind_eq_malformed hbind
          refine ⟨a.flatMap Segment.source, inner, b.flatMap Segment.source, err,
            ⟨?_, ?_, hparse, rfl⟩, hbind⟩
          · rw [← hsource]
            simp [Segment.source]
          · exact hcanonical.closed inner (by simp)

end AttributeValue

/-! ### Documents -/

/-- What comes before a place in a value takes as many bytes in the document. -/
theorem ValuePlace.after_of_standsFor {source : SourceMap} {before first opening : List Char}
    {span : Span} (hstart : span.start = utf8Length before)
    (h : List.Forall₂ StandsFor first opening) :
    ValuePlace.after ⟨span, some source⟩ first =
      ((utf8Length (before ++ opening) : Int),
        source.lineColumn (utf8Length (before ++ opening))) := by
  have hoffset : span.start + utf8Length first = (utf8Length (before ++ opening) : Int) := by
    rw [hstart, utf8Length_eq_of_standsFor h, utf8Length_append, Nat.cast_add]
  rw [after, hoffset]

namespace AttributeValue

/-- An error has the byte where its expression fails, and the line where its expression
begins. Its column counts from there, which is right exactly as long as the document has no
line feed in between. -/
theorem span_of_classify {source : SourceMap} {before text after : List Char} {span : Span}
    {value : String} {e : ParseError} (hsource : source = .ofText (before ++ (text ++ after)))
    (hstart : span.start = utf8Length before) (hvalue : List.Forall₂ StandsFor value.toList text)
    (h : classify ⟨span, some source⟩ value = .error (.parse e)) :
    ∃ first inner last err head piece rest, Refused value.toList first inner last err e ∧
      source = .ofText (head ++ (piece ++ rest)) ∧
      head.length = before.length + (first ++ ['\x7b']).length ∧ piece.length = err.offset ∧
      e.span = ⟨utf8Length (head ++ piece), utf8Length head + utf8Length inner,
        (source.lineColumn (utf8Length head)).1,
        (source.lineColumn (utf8Length head)).2 + piece.length⟩ ∧
      ((e.span.line, e.span.column) = source.lineColumn e.span.start ↔ '\n' ∉ piece) := by
  obtain ⟨first, inner, last, err, hrefused, hbind⟩ := exists_refused_of_classify h
  obtain ⟨hparse, hspan⟩ := ValuePlace.eq_of_bind_eq_malformed hbind
  -- the text of the document up to the expression, from there to the error, and behind it
  have hsplit : value.toList =
      (first ++ ['\x7b']) ++
        (inner.take err.offset ++ (inner.drop err.offset ++ '\x7d' :: last)) := by
    rw [hrefused.value, ← List.append_assoc (inner.take _), List.take_append_drop,
      List.append_assoc]
    rfl
  rw [hsplit] at hvalue
  obtain ⟨opening, more, rfl, hopening, hmore⟩ := exists_append_of_standsFor hvalue
  obtain ⟨piece, rest, rfl, hpiece, -⟩ := exists_append_of_standsFor hmore
  have hdocument : source = .ofText ((before ++ opening) ++ (piece ++ (rest ++ after))) := by
    rw [hsource]
    simp only [List.append_assoc]
  have hoffset : piece.length = err.offset := by
    rw [← hpiece.length_eq, List.length_take]
    exact min_eq_left (ExprParser.offset_le_length hparse)
  have hplace : (utf8Length ((before ++ opening) ++ piece) : Int) =
      utf8Length (before ++ opening) + utf8Length (inner.take err.offset) := by
    rw [utf8Length_eq_of_standsFor hpiece, utf8Length_append _ piece, Nat.cast_add]
  rw [ValuePlace.after_of_standsFor hstart hopening, ← hplace, ← hoffset] at hspan
  refine ⟨first, inner, last, err, before ++ opening, piece, rest ++ after, hrefused, hdocument,
    ?_, hoffset, hspan, ?_⟩
  · rw [List.length_append, hopening.length_eq]
  · rw [hspan]
    exact SourceMap.columns_eq_lineColumn_iff hdocument

/-- A sum without its second operand, on two lines. -/
def halfSum : List Char := "\x7ba\n+\x7d".toList

def halfSumError : ParseError := ⟨.expression (.missing .operand none), ⟨4, 4, 1, 5⟩⟩

set_option maxRecDepth 4000 in
theorem classify_halfSum :
    classify ⟨⟨0, 5, 1, 1⟩, some (.ofText halfSum)⟩ "\x7ba +\x7d" =
      .error (.parse halfSumError) := by
  cbv

/-- On two lines, the error stands on the second one and is given a column of the first. -/
theorem span_of_classify_halfSum :
    classify ⟨⟨0, 5, 1, 1⟩, some (.ofText halfSum)⟩ "\x7ba +\x7d" = .error (.parse halfSumError) ∧
      (SourceMap.ofText halfSum).lineColumn halfSumError.span.start = (2, 2) ∧
      ∃ head piece rest, SourceMap.ofText halfSum = .ofText (head ++ (piece ++ rest)) ∧
        halfSumError.span.start = utf8Length (head ++ piece) ∧ '\n' ∈ piece := by
  have hposition : (SourceMap.ofText halfSum).lineColumn halfSumError.span.start =
      (2, 2) := by decide
  have hvalue : List.Forall₂ StandsFor "\x7ba +\x7d".toList halfSum :=
    .cons (.inl rfl)
      (.cons (.inl rfl) (.cons (.inr ⟨rfl, .inl rfl⟩) (.cons (.inl rfl) (.cons (.inl rfl) .nil))))
  obtain ⟨first, inner, last, err, head, piece, rest, -, hsource, -, -, hspan, hiff⟩ :=
    @span_of_classify _ [] halfSum [] _ _ _ (by rw [List.append_nil]; rfl)
      rfl hvalue classify_halfSum
  refine ⟨classify_halfSum, hposition, head, piece, rest, hsource, congrArg Span.start hspan, ?_⟩
  by_contra hpiece
  have hsame := hiff.mpr hpiece
  rw [hposition] at hsame
  exact absurd hsame (by decide)

end AttributeValue
end UiMarkup
