import UiMarkup.Proofs.Markup.Extents

/-!
How the spans of elements lie to each other. In a document in which every element has a
start tag and an end tag of its own, spans are nested as the elements are, and each one is
the text of its element. An element with one tag alone has its text as its span only at the
very end of the document.
-/

namespace UiMarkup

open Text Xml

namespace Element

mutual

/-- The children lie in the element, each one behind the one before, and so on inside each. -/
def Nested : Element → Prop
  | ⟨_, _, children, span⟩ => InOrder span.start span.stop children

def InOrder : Int → Int → List Element → Prop
  | low, high, [] => low ≤ high
  | low, high, e :: es => low ≤ e.span.start ∧ Nested e ∧ InOrder e.span.stop high es

end

/-- The span is that of the element's own text, from the angle bracket of its first
tag to that of its last. -/
def IsExact (source : SourceMap) (e : Element) : Prop :=
  ∃ before inner after, source.bytes = before ++ (byteOf '<' :: (inner ++ byteOf '>' :: after)) ∧
    e.WrittenAt source False before.length (byteOf '<' :: (inner ++ [byteOf '>'])) ∧
    e.span = source.span before.length (before.length + inner.length + 2 : Nat)

section

variable {source : SourceMap} {declares : Prop}

/-- In a text without them, no element has one tag alone. -/
theorem not_emptyTag {text : List UInt8} (pairs : ¬ tagClosing true <:+: text)
    (opens : IsStartTag true text) : False := by
  obtain @⟨name, body, -, -, -⟩ := opens
  exact pairs ⟨byteOf '<' :: (name ++ body), [], by simp⟩

mutual

theorem WrittenAt.nested {e : Element} {offset : Nat} {text : List UInt8}
    (h : e.WrittenAt source False offset text) (pairs : ¬ tagClosing true <:+: text) :
    e.span = source.span offset (offset + text.length : Nat) ∧ e.Nested := by
  cases h with
  | @pair _ _ _ _ opening inner closing opens content closes =>
      refine ⟨rfl, ContentAt.inOrder content (fun hempty => pairs (hempty.trans ?_)) ?_ ?_⟩
      · exact ⟨opening, closing, List.append_assoc ..⟩
      · change (offset : Int) ≤ _
        omega
      · change _ ≤ ((offset + (opening ++ (inner ++ closing)).length : Nat) : Int)
        simp only [List.length_append]
        omega
  | empty opens => exact (not_emptyTag pairs opens).elim

theorem ContentAt.inOrder {es : List Element} {offset : Nat} {text : List UInt8}
    (h : ContentAt source False es offset text) (pairs : ¬ tagClosing true <:+: text)
    {low high : Int} (hlow : low ≤ offset) (hhigh : (offset + text.length : Nat) ≤ high) :
    InOrder low high es := by
  cases h with
  | nil =>
      rw [InOrder]
      omega
  | @element e es _ gap own rest between written more =>
      obtain ⟨hspan, hnested⟩ := written.nested fun hempty =>
        pairs (hempty.trans ⟨gap, rest, List.append_assoc ..⟩)
      refine ⟨?_, hnested, ContentAt.inOrder more (fun hempty => pairs (hempty.trans ?_)) ?_ ?_⟩
      · rw [hspan]
        change low ≤ ((offset + gap.length : Nat) : Int)
        omega
      · exact ⟨gap ++ own, [], by simp⟩
      · rw [hspan]
        exact Int.le_refl _
      · simp only [List.length_append] at hhigh ⊢
        omega
  | entity declared => exact declared.elim

end

mutual

theorem WrittenAt.exact {e : Element} {offset : Nat} {before text after : List UInt8}
    (h : e.WrittenAt source False offset text) (hoffset : before.length = offset)
    (hbytes : source.bytes = before ++ (text ++ after)) (pairs : ¬ tagClosing true <:+: text) :
    ∀ d ∈ e.walk, d.IsExact source := by
  subst hoffset
  have hself : e.IsExact source := by
    obtain ⟨hspan, -⟩ := h.nested pairs
    obtain ⟨inner, rfl⟩ := h.bracketed
    refine ⟨before, inner, after, by simpa using hbytes, h, ?_⟩
    rw [hspan]
    simp [Nat.add_assoc]
  cases h with
  | @pair _ _ _ _ opening inner closing _ content _ =>
      have hbefore : (before ++ opening).length = before.length + opening.length :=
        List.length_append
      have hinner : source.bytes = before ++ opening ++ (inner ++ (closing ++ after)) := by
        simpa using hbytes
      have hchildren := ContentAt.exact content hbefore hinner fun hempty =>
        pairs (hempty.trans ⟨opening, closing, List.append_assoc ..⟩)
      rw [walk]
      exact List.forall_mem_cons.mpr ⟨hself, hchildren⟩
  | empty opens => exact (not_emptyTag pairs opens).elim

theorem ContentAt.exact {es : List Element} {offset : Nat} {before text after : List UInt8}
    (h : ContentAt source False es offset text) (hoffset : before.length = offset)
    (hbytes : source.bytes = before ++ (text ++ after)) (pairs : ¬ tagClosing true <:+: text) :
    ∀ d ∈ walkAll es, d.IsExact source := by
  subst hoffset
  cases h with
  | nil => simp [walkAll]
  | @element e es _ gap own rest _ written more =>
      have hgap : (before ++ gap).length = before.length + gap.length := List.length_append
      have hown : source.bytes = before ++ gap ++ (own ++ (rest ++ after)) := by simpa using hbytes
      have hbefore : (before ++ gap ++ own).length = before.length + gap.length + own.length := by
        simp only [List.length_append]
      have hrest : source.bytes = before ++ gap ++ own ++ (rest ++ after) := by simpa using hbytes
      have he := written.exact hgap hown fun hempty =>
        pairs (hempty.trans ⟨gap, rest, List.append_assoc ..⟩)
      have hes := ContentAt.exact more hbefore hrest fun hempty =>
        pairs (hempty.trans ⟨gap ++ own, [], by simp⟩)
      rw [walkAll]
      exact List.forall_mem_append.mpr ⟨he, hes⟩
  | entity declared => exact declared.elim

end

/-! ### Empty elements -/

theorem length_eq_zero_iff {bytes : List UInt8} : Tag.length none bytes = 0 ↔ bytes = [] := by
  cases bytes with
  | nil => simp [Tag.length]
  | cons b bytes =>
      rw [Tag.length]
      split_ifs <;> simp

/-- The span of an element with one tag alone is its text only where the document ends. -/
theorem WrittenAt.span_eq_iff_of_emptyTag {e : Element} {offset : Nat} {text : List UInt8}
    (h : e.WrittenAt source declares offset text) (single : IsStartTag true text) :
    e.span = source.span offset (offset + text.length : Nat) ↔
    source.bytes.length ≤ offset + text.length := by
  cases h with
  | @pair _ _ _ _ opening inner closing opens _ closes =>
      -- the end tag has an angle bracket that a start tag cannot have
      refine absurd ?_ single.no_angle_tail
      obtain @⟨name, body, -, -, -⟩ := opens
      obtain @⟨name', -⟩ := closes
      simp
  | empty opens =>
      rw [← List.drop_eq_nil_iff, ← length_eq_zero_iff, Tag.stop]
      constructor
      · intro hspan
        have hstop := congrArg Span.stop hspan
        change (((offset + text.length + _ : Nat)) : Int) =
            ((offset + text.length : Nat) : Int) at hstop
        omega
      · intro hlength
        rw [hlength]
        rfl

end

end Element

namespace Markup

open Element

/-- In a document that is not in UTF-16, an element is written where its span begins.
One whose elements all have two tags of their own has nested spans, each of which is
the text of its element. -/
theorem extents_of_read {bytes : List UInt8} {m : Markup} (h : Markup.read bytes = .ok m)
    (narrow : (Document.detect bytes).1 = .utf8) :
    ∃ before text after, bytes = before ++ (text ++ after) ∧
      m.root.WrittenAt ⟨bytes⟩ (doctypeOpen.map byteOf <:+: bytes) before.length text ∧
      (¬ doctypeOpen.map byteOf <:+: bytes → ¬ tagClosing true <:+: text →
        m.root.Nested ∧ ∀ e ∈ m.root.walk, e.IsExact ⟨bytes⟩) := by
  obtain ⟨before, text, after, hbytes, hwritten⟩ := written_of_read h narrow
  refine ⟨before, text, after, hbytes, hwritten, fun hplain pairs => ?_⟩
  rw [eq_false hplain] at hwritten
  exact ⟨(hwritten.nested pairs).2, hwritten.exact rfl hbytes pairs⟩

def paired : List UInt8 :=
  encodeUtf8 "<column><text value='a>b'></text>'<row></row></column>".toList

def pairedMarkup : Markup :=
  ⟨⟨"column", [],
      [⟨"text", [⟨"value", "a>b", ⟨21, 24, 1, 22⟩⟩], [], ⟨8, 33, 1, 9⟩⟩,
        ⟨"row", [], [], ⟨34, 45, 1, 35⟩⟩],
      ⟨0, 54, 1, 1⟩⟩, ⟨paired⟩, false⟩

theorem read_paired : Markup.read paired = .ok pairedMarkup := by
  decide +kernel

theorem detect_paired : (Document.detect paired).1 = .utf8 := by
  decide +kernel

theorem extents_of_read_paired : Markup.read paired = .ok pairedMarkup ∧ pairedMarkup.root.Nested ∧
    ∀ e ∈ pairedMarkup.root.walk, e.IsExact ⟨paired⟩ := by
  obtain ⟨before, text, after, hbytes, -, hpairs⟩ := extents_of_read read_paired detect_paired
  have htext : text <:+: paired := ⟨before, after, by rw [hbytes, List.append_assoc]⟩
  have hempty : ¬ tagClosing true <:+: paired := by decide
  exact ⟨read_paired, hpairs (by decide) fun hwithin => hempty (hwithin.trans htext)⟩

-- In UTF-16, half of a letter of the end tag is taken for its angle bracket.
example : Markup.read [0xFF, 0xFE, 0x3C, 0, 0x3E, 1, 0x3E, 0, 0x3C, 0, 0x2F, 0, 0x3E, 1, 0x3E, 0] =
    .ok ⟨⟨"ľ", [], [], ⟨2, 13, 1, 3⟩⟩,
      ⟨[0xFF, 0xFE, 0x3C, 0, 0x3E, 1, 0x3E, 0, 0x3C, 0, 0x2F, 0, 0x3E, 1, 0x3E, 0]⟩, false⟩ := by
  decide +kernel

def single : List UInt8 := encodeUtf8 "<column><text/><row/></column>".toList

def singleMarkup : Markup :=
  ⟨⟨"column", [], [⟨"text", [], [], ⟨8, 21, 1, 9⟩⟩, ⟨"row", [], [], ⟨15, 30, 1, 16⟩⟩],
    ⟨0, 30, 1, 1⟩⟩, ⟨single⟩, false⟩

/-- Of two elements with one tag each, the first ends behind the beginning of the second. -/
theorem not_nested_of_read_single :
    Markup.read single = .ok singleMarkup ∧ ¬ singleMarkup.root.Nested := by
  refine ⟨by decide +kernel, ?_⟩
  simp [singleMarkup, Nested, InOrder]

end Markup
end UiMarkup
