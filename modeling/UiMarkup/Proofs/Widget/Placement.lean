import UiMarkup.Proofs.Source.Positions
import UiMarkup.Proofs.Widget.Spans

/-!
Values that stand in a document as they are. The place of an expression in such a value can be
looked up in the document or be counted from the place of the value; both give the same one, and
there the document has the text of the expression.
-/

namespace UiMarkup

open Text

namespace ValuePlace

variable {source : SourceMap} {before first rest : List Char} {span : Span}

/-- Lines and columns that are counted from the place of a value are those of the source. -/
theorem after_eq_of_inPlace (hsource : source = .ofText (before ++ (first ++ rest)))
    (hstart : span.start = utf8Length before)
    (hposition : (span.line, span.column) = source.lineColumn span.start) :
    after ⟨span, none⟩ first = after ⟨span, some source⟩ first := by
  have hoffset : span.start + utf8Length first = (utf8Length (before ++ first) : Int) := by
    rw [hstart, utf8Length_append, Nat.cast_add]
  have hhere := SourceMap.lineColumn_ofText before (first ++ rest)
  have hthere := SourceMap.lineColumn_ofText (before ++ first) rest
  rw [List.append_assoc] at hthere
  rw [hstart, hsource, hhere] at hposition
  obtain ⟨hline, hcolumn⟩ := Prod.mk.inj hposition
  simp only [after]
  rw [hoffset, hsource, hthere, hline, hcolumn, List.count_append]
  split
  · next hnone =>
    rw [hnone, columnAfterBreak_append (List.count_eq_zero.mp hnone)]
    push_cast
    rfl
  · next hsome =>
    obtain ⟨a, b, rfl, -⟩ :=
      List.eq_append_cons_of_mem (List.count_pos_iff.mp (Nat.pos_of_ne_zero hsome))
    rw [← List.append_assoc before, columnAfterBreak_newline, columnAfterBreak_newline]
    push_cast
    rw [add_right_comm]

end ValuePlace

namespace AttributeValue

variable {p q : ValuePlace}

/-- Only the places of its groups count for a value. -/
theorem partsOf_congr {before : List Char} {segments : List Segment}
    (h : ∀ first rest, before ++ segments.flatMap Segment.source = first ++ rest →
      p.after first = q.after first) :
    partsOf p before segments = partsOf q before segments := by
  induction segments generalizing before with
  | nil => rfl
  | cons s more ih =>
      have hmore : partsOf p (before ++ s.source) more = partsOf q (before ++ s.source) more :=
        ih fun first rest hsplit => h first rest (by simpa using hsplit)
      cases s with
      | literal text =>
          rw [partsOf_literal, partsOf_literal]
          exact congrArg _ hmore
      | group inner =>
          have hplace : p.after (before ++ ['\x7b']) = q.after (before ++ ['\x7b']) :=
            h _ (inner ++ '\x7d' :: more.flatMap Segment.source) (by simp [Segment.source])
          rw [partsOf_group, partsOf_group, ValuePlace.bind, ValuePlace.bind, hplace, hmore]

theorem classify_congr {value : String}
    (h : ∀ first rest, value.toList = first ++ rest → p.after first = q.after first) :
    classify p value = classify q value := by
  have hsource := (Segment.split_spec value.toList).1
  rw [classify, classify, partsOf_congr]
  rwa [List.nil_append, hsource]

/-- In a value that stands in a document as it is, the expressions are those of its groups,
and the region of each is the text between the braces. The document is not needed to find
the lines and columns. -/
theorem classify_inPlace {source : SourceMap} {before after : List Char} {span : Span}
    {value : String} (hsource : source = .ofText (before ++ (value.toList ++ after)))
    (hstart : span.start = utf8Length before)
    (hposition : (span.line, span.column) = source.lineColumn span.start) :
    classify ⟨span, none⟩ value = classify ⟨span, some source⟩ value ∧
    ∀ v, classify ⟨span, some source⟩ value = .ok v →
      List.Forall₂
        (fun inner b => ∃ first last, value.toList = first ++ '\x7b' :: (inner ++ '\x7d' :: last) ∧
          '\x7d' ∉ inner ∧
          ExprParser.parse inner = .ok b.expr ∧
          b.span.start = span.start + utf8Length (first ++ ['\x7b']) ∧
          source.slice b.span = encodeUtf8 inner ∧
          (b.span.line, b.span.column) = source.lineColumn b.span.start)
        (groups value) v.bindings := by
  refine ⟨classify_congr fun first rest hsplit => ?_, fun v hv => (ofGroup_of_classify hv).imp ?_⟩
  · rw [hsplit, List.append_assoc] at hsource
    exact ValuePlace.after_eq_of_inPlace hsource hstart hposition
  · rintro inner b ⟨first, last, hgroup⟩
    refine ⟨first, last, hgroup.value, hgroup.closed, hgroup.parse, hgroup.start,
      ?_, hgroup.position⟩
    have hbytes : source.bytes =
        encodeUtf8 before ++ encodeUtf8 ((first ++ ['\x7b']) ++ (inner ++ ('\x7d' :: last))) ++
          encodeUtf8 after := by
      rw [hsource, hgroup.value, SourceMap.ofText, encodeUtf8_append, encodeUtf8_append]
      simp
    refine source.slice_eq hbytes ?_ hgroup.stop
    rw [hgroup.start, hstart, length_encodeUtf8]

/-! ### A value on two lines -/

def sumText : String := "m\n\x7ba\x7dé\x7bb\x7d"

def sumSource : SourceMap := .ofText ("é: ".toList ++ (sumText.toList ++ ['!']))

def sumSpan : Span := ⟨4, 14, 1, 4⟩

def secondBinding : Binding := ⟨.field ["b"], ⟨12, 13, 2, 6⟩⟩

def sumValue : AttributeValue :=
  .interpolated [.text "m\n", .binding ⟨.field ["a"], ⟨7, 8, 2, 2⟩⟩, .text "é",
    .binding secondBinding]

set_option maxRecDepth 4000 in
theorem classify_sumText : classify ⟨sumSpan, none⟩ sumText = .ok sumValue := by
  cbv

theorem groups_sumText : groups sumText = [['a'], ['b']] := by
  cbv

theorem classify_inPlace_sum : (sumSpan.line, sumSpan.column) = sumSource.lineColumn sumSpan.start ∧
    classify ⟨sumSpan, some sumSource⟩ sumText = .ok sumValue ∧
    sumSource.slice secondBinding.span = encodeUtf8 ['b'] ∧
    sumSource.lineColumn secondBinding.span.start = (2, 6) := by
  have hposition : (sumSpan.line, sumSpan.column) = sumSource.lineColumn sumSpan.start :=
    (SourceMap.lineColumn_ofText "é: ".toList (sumText.toList ++ ['!'])).symm
  obtain ⟨hsame, hall⟩ := @classify_inPlace sumSource "é: ".toList ['!'] sumSpan sumText
    rfl (by decide) hposition
  have hvalue := hsame.symm.trans classify_sumText
  have hbindings := hall sumValue hvalue
  rw [groups_sumText] at hbindings
  cases hbindings with
  | cons _ hmore =>
      cases hmore with
      | cons hsecond _ =>
          obtain ⟨first, last, -, -, -, -, hslice, hsecond⟩ := hsecond
          exact ⟨hposition, hvalue, hslice, hsecond.symm⟩

end AttributeValue
end UiMarkup
