import UiMarkup.Proofs.Document.Provenance
import UiMarkup.Proofs.Text.Utf8

/-!
Where the expressions of a document stand. Each one is the text of a group in the value of
some attribute, and its span counts the bytes of that value from the place of the value on. So
it is the region of the written text wherever the value is written as it is, apart from
blanks. Behind a reference or a line end of two characters it is not: these are longer in the
source than in the value.
-/

namespace UiMarkup

/-! ### Bytes -/

namespace Text

/-- In a value, a space stands for any blank that is written. -/
def spaced (c : Char) : Char := if Xml.isSpace c then ' ' else c

theorem utf8Size_spaced (c : Char) : (spaced c).utf8Size = c.utf8Size := by
  rw [spaced]
  split
  · rename_i h
    simp only [Xml.isSpace, Bool.or_eq_true, beq_iff_eq] at h
    obtain ((rfl | rfl) | rfl) | rfl := h <;> rfl
  · rfl

theorem utf8Length_map_spaced (cs : List Char) : utf8Length (cs.map spaced) = utf8Length cs := by
  induction cs with
  | nil => rfl
  | cons c cs ih => rw [List.map_cons, utf8Length_cons, utf8Length_cons, utf8Size_spaced, ih]

end Text

open Text

/-- The bytes of a region. -/
def SourceMap.slice (m : SourceMap) (s : Span) : List UInt8 :=
  (m.bytes.drop s.start.toNat).take (s.stop - s.start).toNat

/-- The value is written at its place as it is, apart from blanks. -/
def Attribute.Verbatim (m : SourceMap) (a : Attribute) : Prop :=
  ∃ before text after, m.bytes = before ++ encodeUtf8 text ++ after ∧ a.span.start = before.length ∧
    text.map spaced = a.value.toList

/-- A region inside a text that stands somewhere. -/
theorem SourceMap.slice_eq {m : SourceMap} {before after : List UInt8} {a b c : List Char}
    {s : Span} (hbytes : m.bytes = before ++ encodeUtf8 (a ++ (b ++ c)) ++ after)
    (hstart : s.start = before.length + utf8Length a) (hstop : s.stop = s.start + utf8Length b) :
    m.slice s = encodeUtf8 b := by
  have hfirst : s.start.toNat = (before ++ encodeUtf8 a).length := by
    rw [List.length_append, length_encodeUtf8]
    omega
  have hlength : (s.stop - s.start).toNat = (encodeUtf8 b).length := by
    rw [length_encodeUtf8]
    omega
  have hsplit : m.bytes = (before ++ encodeUtf8 a) ++
      (encodeUtf8 b ++ (encodeUtf8 c ++ after)) := by
    rw [hbytes, encodeUtf8_append, encodeUtf8_append]
    simp only [List.append_assoc]
  rw [slice, hsplit, hfirst, List.drop_left, hlength, List.take_left]

/-! ### Groups -/

/-- The binding is that of a group of a value, with some characters before it and some behind it. -/
structure Binding.OfGroup (p : ValuePlace) (value before inner after : List Char) (b : Binding) :
    Prop where
  value : value = before ++ '\x7b' :: (inner ++ '\x7d' :: after)
  closed : '\x7d' ∉ inner
  bound : p.bind (before ++ ['\x7b']) inner = .ok b

namespace AttributeValue

variable {p : ValuePlace} {value : String} {b : Binding}

/-- The expressions of some segments are those of their groups, one after the other. -/
theorem ofGroup_of_partsOf {before : List Char} {segments : List Segment} {parts : List ValuePart}
    (h : partsOf p before segments = .ok parts)
    (hclosed : ∀ inner, .group inner ∈ segments → '\x7d' ∉ inner) :
    List.Forall₂
      (fun inner b => ∃ first after,
        b.OfGroup p (before ++ segments.flatMap Segment.source) first inner after)
      (segments.filterMap Segment.inner?) (parts.filterMap ValuePart.binding?) := by
  induction segments generalizing before parts with
  | nil =>
      obtain rfl := Except.ok.inj h
      exact .nil
  | cons s more ih =>
      have hmore := fun inner hinner => hclosed inner (List.mem_cons_of_mem s hinner)
      cases s with
      | literal text =>
          obtain ⟨rest, hrest, h⟩ := bind_eq_ok_iff.mp h
          obtain rfl := Except.ok.inj h
          rw [List.filterMap_cons_none rfl, List.filterMap_cons_none rfl]
          simpa [Segment.source] using ih hrest hmore
      | group inner =>
          obtain ⟨b, hb, h⟩ := bind_eq_ok_iff.mp h
          obtain ⟨rest, hrest, h⟩ := bind_eq_ok_iff.mp h
          obtain rfl := Except.ok.inj h
          refine .cons ⟨before, more.flatMap Segment.source, ?_, hclosed inner (by simp),
            mapError_eq_ok_iff.mp hb⟩ ?_
          · simp [Segment.source]
          · simpa [Segment.source] using ih hrest hmore

theorem bindings_ofParts (parts : List ValuePart) :
    (ofParts parts).bindings = parts.filterMap ValuePart.binding? := by
  match parts with
  | [] => rfl
  | [.text _] => rfl
  | [.binding _] => rfl
  | .text _ :: _ :: _ | .binding _ :: _ :: _ => rfl

/-- The expressions of a value were read from its groups. -/
theorem ofGroup_of_classify {v : AttributeValue} (h : classify p value = .ok v) :
    List.Forall₂ (fun inner b => ∃ first after, b.OfGroup p value.toList first inner after)
      (groups value) v.bindings := by
  obtain ⟨hsource, hcanonical⟩ := Segment.split_spec value.toList
  obtain ⟨parts, hparts, h⟩ := bind_eq_ok_iff.mp h
  obtain rfl := Except.ok.inj h
  have hgroups := ofGroup_of_partsOf hparts hcanonical.closed
  rw [List.nil_append, hsource] at hgroups
  rw [bindings_ofParts]
  exact hgroups

theorem exists_ofGroup_of_classify {v : AttributeValue} (h : classify p value = .ok v)
    (hb : b ∈ v.bindings) : ∃ before inner after, b.OfGroup p value.toList before inner after := by
  obtain ⟨inner, -, before, after, hgroup⟩ := exists_mem_of_forall₂ (ofGroup_of_classify h) hb
  exact ⟨before, inner, after, hgroup⟩

end AttributeValue

theorem ValuePlace.after_fst (p : ValuePlace) (before : List Char) :
    (p.after before).1 = p.span.start + utf8Length before := by
  rw [after]
  split
  · rfl
  · dsimp only
    split <;> rfl

theorem ValuePlace.span_of_bind_eq_ok {p : ValuePlace} {before text : List Char} {b : Binding}
    (h : p.bind before text = .ok b) : b.span =
      ⟨(p.after before).1, (p.after before).1 + utf8Length text, (p.after before).2.1,
        (p.after before).2.2⟩ := by
  have hparse := parse_of_bind_eq_ok h
  simp only [bind, Binding.parse, hparse] at h
  exact (congrArg Binding.span (Except.ok.inj h)).symm

namespace Binding.OfGroup

variable {p : ValuePlace} {value before inner after : List Char} {b : Binding}

theorem parse (h : b.OfGroup p value before inner after) : ExprParser.parse inner = .ok b.expr :=
  ValuePlace.parse_of_bind_eq_ok h.bound

theorem span_eq (h : b.OfGroup p value before inner after) :
    b.span = ⟨(p.after (before ++ ['\x7b'])).1, (p.after (before ++ ['\x7b'])).1 + utf8Length inner,
      (p.after (before ++ ['\x7b'])).2.1, (p.after (before ++ ['\x7b'])).2.2⟩ :=
  ValuePlace.span_of_bind_eq_ok h.bound

theorem start (h : b.OfGroup p value before inner after) :
    b.span.start = p.span.start + utf8Length (before ++ ['\x7b']) := by
  rw [h.span_eq]
  exact p.after_fst _

theorem stop (h : b.OfGroup p value before inner after) :
    b.span.stop = b.span.start + utf8Length inner := by
  rw [h.span_eq]

theorem position {span : Span} {source : SourceMap}
    (h : b.OfGroup ⟨span, some source⟩ value before inner after) :
    (b.span.line, b.span.column) = source.lineColumn b.span.start := by
  rw [h.span_eq]
  rfl

/-- The region of the binding is the text that is written between the braces. -/
theorem slice {a : Attribute} {source : SourceMap}
    (h : b.OfGroup ⟨a.span, some source⟩ a.value.toList before inner after)
    (hverbatim : a.Verbatim source) :
    ∃ text, source.slice b.span = encodeUtf8 text ∧ text.map spaced = inner := by
  obtain ⟨first, text, last, hbytes, hplace, htext⟩ := hverbatim
  have hvalue : text.map spaced = (before ++ ['\x7b']) ++ (inner ++ '\x7d' :: after) := by
    rw [htext, h.value, List.append_assoc]
    rfl
  obtain ⟨text₁, more, rfl, hbefore, hmore⟩ := List.map_eq_append_iff.mp hvalue
  obtain ⟨text₂, text₃, rfl, hinner, -⟩ := List.map_eq_append_iff.mp hmore
  refine ⟨text₂, source.slice_eq hbytes ?_ ?_, hinner⟩
  · rw [h.start, ← hbefore, utf8Length_map_spaced, hplace]
  · rw [h.stop, ← hinner, utf8Length_map_spaced]

end Binding.OfGroup

/-! ### Values of a widget -/

namespace Route

def value? : Route → Option AttributeValue
  | .id _ | .event _ => none
  | .breakpoint _ _ value | .state _ _ value | .plain _ value => some value

theorem classify_of_ofAttribute {source : SourceMap} {a : Attribute} {r : Route}
    {v : AttributeValue} (h : ofAttribute source a = .ok r) (hv : r.value? = some v) :
    AttributeValue.classify ⟨a.span, some source⟩ a.value = .ok v := by
  rw [ofAttribute] at h
  split at h
  · obtain rfl := Except.ok.inj h
    cases hv
  · obtain ⟨event, -, h⟩ := bind_eq_ok_iff.mp h
    split at h
    · obtain rfl := Except.ok.inj h
      cases hv
    · -- wherever the value goes, it is classified first
      split at h
      · obtain ⟨v', hv', h⟩ := bind_eq_ok_iff.mp h
        obtain rfl := Except.ok.inj h
        exact Option.some.inj hv ▸ hv'
      · split at h
        · obtain ⟨v', hv', h⟩ := bind_eq_ok_iff.mp h
          obtain rfl := Except.ok.inj h
          exact Option.some.inj hv ▸ hv'
        · obtain ⟨v', hv', h⟩ := bind_eq_ok_iff.mp h
          obtain rfl := Except.ok.inj h
          exact Option.some.inj hv ▸ hv'

end Route

/-- Something holds of all values in a map. -/
def AttributeMap.All (P : AttributeValue → Prop) (m : AttributeMap) : Prop := ∀ p ∈ m, P p.2

section All

variable {P : AttributeValue → Prop}

theorem AttributeMap.All.put {m : AttributeMap} (h : m.All P) {v : AttributeValue} (hv : P v)
    (name : String) : AttributeMap.All P (m.put name v) := by
  intro p hp
  obtain rfl | hp := OrderedMap.mem_put hp
  · exact hv
  · exact h p hp

theorem Renaming.all_applyAll {kind : Kind} {m : AttributeMap} {rs : List Renaming} (h : m.All P) :
    (applyAll kind m rs).1.All P := by
  induction rs generalizing m with
  | nil => exact h
  | cons r rs ih =>
      cases kind with
      | custom _ => exact h
      | builtin k =>
          rw [applyAll]
          split
          · refine ih ?_
            rw [apply]
            split
            · rename_i value hvalue
              have herase : AttributeMap.All P (m.erase r.oldName) :=
                fun p hp => h p (List.mem_of_mem_filter hp)
              exact herase.put (h _ (OrderedMap.mem_of_get?_eq_some hvalue)) r.newName
            · exact h
          · exact ih h

/-- Something holds of all values of attributes, also of those for breakpoints. -/
structure Routed.All (P : AttributeValue → Prop) (r : Routed) : Prop where
  attributes : r.attributes.All P
  breakpoints : ∀ q ∈ r.breakpoints, q.2.All P

theorem Routed.All.add {r : Routed} (h : r.All P) {route : Route}
    (hroute : ∀ v, route.value? = some v → P v) : (r.add route).All P := by
  cases route with
  | id _ => exact ⟨h.attributes, h.breakpoints⟩
  | event _ => exact ⟨h.attributes, h.breakpoints⟩
  | state _ _ _ => exact ⟨h.attributes, h.breakpoints⟩
  | plain name v => exact ⟨h.attributes.put (hroute v rfl) name, h.breakpoints⟩
  | breakpoint b name v =>
      refine ⟨h.attributes, fun q hq => ?_⟩
      have hbefore : AttributeMap.All P ((r.breakpoints.get? b).getD []) := by
        cases hget : r.breakpoints.get? b with
        | none => exact fun p hp => absurd hp List.not_mem_nil
        | some m => exact h.breakpoints _ (OrderedMap.mem_of_get?_eq_some hget)
      obtain rfl | hq := OrderedMap.mem_put hq
      · exact hbefore.put (hroute v rfl) name
      · exact h.breakpoints q hq

theorem Routed.All.foldl {r : Routed} (h : r.All P) {routes : List Route}
    (hroutes : ∀ route ∈ routes, ∀ v, route.value? = some v → P v) :
    (routes.foldl Routed.add r).All P := by
  induction routes generalizing r with
  | nil => exact h
  | cons route routes ih =>
      rw [List.forall_mem_cons] at hroutes
      exact ih (h.add hroutes.1) hroutes.2

end All

/-- All values of a widget are those of attributes. -/
theorem Routed.all_of_ofAttributes {source : SourceMap} {attributes : List Attribute} {r : Routed}
    (h : ofAttributes source attributes = .ok r) :
    r.All fun v => ∃ a ∈ attributes, AttributeValue.classify ⟨a.span, some source⟩ a.value =
      .ok v := by
  obtain ⟨routes, hroutes, h⟩ := bind_eq_ok_iff.mp h
  obtain rfl := Except.ok.inj h
  have hempty : ({} : Routed).All fun v =>
      ∃ a ∈ attributes, AttributeValue.classify ⟨a.span, some source⟩ a.value = .ok v :=
    ⟨fun p hp => absurd hp List.not_mem_nil, fun q hq => absurd hq List.not_mem_nil⟩
  refine hempty.foldl fun route hroute v hv => ?_
  obtain ⟨a, ha, hr⟩ := exists_mem_of_mapM hroutes route hroute
  exact ⟨a, ha, Route.classify_of_ofAttribute hr hv⟩

/-! ### Documents -/

namespace Widget

/-- The expressions in the attributes of a widget, also in those for breakpoints. -/
def bindings (w : Widget) : List Binding :=
  (w.attributes ++ w.breakpoints.flatMap Prod.snd).flatMap fun p => p.2.bindings

theorem exists_ofGroup_of_madeOf {custom : List String} {source : SourceMap} {e : Element}
    {w : Widget} (h : w.MadeOf custom source e) {b : Binding} (hb : b ∈ w.bindings) :
    ∃ a ∈ e.attributes, ∃ before inner after,
      b.OfGroup ⟨a.span, some source⟩ a.value.toList before inner after := by
  obtain ⟨routed, hrouted, hassembled⟩ := h.assembled
  have hall := Routed.all_of_ofAttributes hrouted
  obtain ⟨p, hp, hb⟩ := List.mem_flatMap.mp hb
  have hvalue : ∃ a ∈ e.attributes, AttributeValue.classify ⟨a.span, some source⟩ a.value =
      .ok p.2 := by
    obtain hp | hp := List.mem_append.mp hp
    · rw [hassembled.attributes] at hp
      exact Renaming.all_applyAll hall.attributes p hp
    · obtain ⟨q, hq, hp⟩ := List.mem_flatMap.mp hp
      rw [hassembled.breakpoints] at hq
      exact hall.breakpoints q hq p hp
  obtain ⟨a, ha, hclassify⟩ := hvalue
  exact ⟨a, ha, AttributeValue.exists_ofGroup_of_classify hclassify hb⟩

end Widget

namespace Document

theorem source_of_read {bytes : List UInt8} {m : Markup} (h : Markup.read bytes = .ok m) :
    m.source = ⟨bytes⟩ := by
  rw [Markup.read] at h
  split at h
  · cases h
  · cases h
  · split at h
    · cases h
      rfl
    · cases h

theorem slice_of_read {custom : List String} {bytes : List UInt8} {d : Document}
    {notices : List Notice} (h : read custom bytes = (.ok d, notices)) :
    ∃ m, Markup.read bytes = .ok m ∧ ∀ w ∈ d.walk, ∀ b ∈ w.bindings,
      ∃ e ∈ widgetElements m.root, ∃ a ∈ e.attributes, ∃ before inner after,
        a.value.toList = before ++ '\x7b' :: (inner ++ '\x7d' :: after) ∧ '\x7d' ∉ inner ∧
        ExprParser.parse inner = .ok b.expr ∧
        b.span.start = a.span.start + utf8Length (before ++ ['\x7b']) ∧
        b.span.stop = b.span.start + utf8Length inner ∧
        (b.span.line, b.span.column) = SourceMap.lineColumn ⟨bytes⟩ b.span.start ∧
        (a.Verbatim ⟨bytes⟩ →
          ∃ text, SourceMap.slice ⟨bytes⟩ b.span = encodeUtf8 text ∧ text.map spaced = inner) := by
  obtain ⟨m, hm, hd⟩ := exists_markup_of_read h
  refine ⟨m, hm, fun w hw b hb => ?_⟩
  obtain ⟨e, he, hmade⟩ | rfl := exists_madeOf_of_ofMarkup hd w hw
  · obtain ⟨a, ha, before, inner, after, hgroup⟩ := Widget.exists_ofGroup_of_madeOf hmade hb
    rw [source_of_read hm] at hgroup
    exact ⟨e, he, a, ha, before, inner, after, hgroup.value, hgroup.closed, hgroup.parse,
      hgroup.start, hgroup.stop, hgroup.position, hgroup.slice⟩
  · cases hb

/-! ### A text with a binding -/

/-- The value of a text, written behind `<text value="`. -/
def written (value : String) : List UInt8 := encodeUtf8 ("<text value=\"" ++ value ++ "\"/>").toList

def textMarkup (source : List UInt8) (value : String) (valueStop stop : Int) : Markup where
  root := ⟨"text", [⟨"value", value, ⟨13, valueStop, 1, 14⟩⟩], [], ⟨0, stop, 1, 1⟩⟩
  source := ⟨source⟩
  hasDeclaration := false

def textDocument (parts : List ValuePart) (stop : Int) : Document where
  root :=
    { kind := .builtin .text, attributes := [("value", .interpolated parts)],
      span := ⟨0, stop, 1, 1⟩ }

def countBinding : Binding := ⟨.field ["count"], ⟨21, 26, 2, 2⟩⟩

def total : List UInt8 := written "Total:\n\x7bcount\x7d"

def totalDocument : Document := textDocument [.text "Total: ", .binding countBinding] 30

theorem readMarkup_total :
    Markup.read total = .ok (textMarkup total "Total: \x7bcount\x7d" 27 30) := by
  decide +kernel

set_option maxRecDepth 4000 in
theorem read_total : read [] total = (.ok totalDocument, []) := by
  rw [read, readMarkup_total, total]
  cbv

theorem slice_of_read_total : read [] total = (.ok totalDocument, []) ∧
    (∃ w ∈ totalDocument.walk, countBinding ∈ w.bindings) ∧
    ∃ text, SourceMap.slice ⟨total⟩ countBinding.span = encodeUtf8 text ∧
      ExprParser.parse (text.map spaced) = .ok countBinding.expr := by
  have hwalk : totalDocument.root ∈ totalDocument.walk := List.mem_cons_self
  have hbinding : countBinding ∈ totalDocument.root.bindings := List.mem_cons_self
  obtain ⟨m, hm, hall⟩ := slice_of_read read_total
  obtain rfl : textMarkup total "Total: \x7bcount\x7d" 27 30 = m :=
    Except.ok.inj (readMarkup_total.symm.trans hm)
  obtain ⟨e, he, a, ha, before, inner, after, -, -, hparse, -, -, -, hslice⟩ :=
    hall _ hwalk _ hbinding
  obtain rfl := List.mem_singleton.mp he
  obtain rfl := List.mem_singleton.mp ha
  have hverbatim : Attribute.Verbatim ⟨total⟩ ⟨"value", "Total: \x7bcount\x7d", ⟨13, 27, 1, 14⟩⟩ :=
    ⟨encodeUtf8 "<text value=\"".toList, "Total:\n\x7bcount\x7d".toList, encodeUtf8 "\"/>".toList,
      by decide, by decide, by decide⟩
  obtain ⟨text, hbytes, rfl⟩ := hslice hverbatim
  exact ⟨read_total, ⟨_, hwalk, hbinding⟩, text, hbytes, hparse⟩

def ampersand : List UInt8 := written "&amp;\x7ba\x7d"

def fieldBinding : Binding := ⟨.field ["a"], ⟨15, 16, 1, 16⟩⟩

set_option maxRecDepth 4000 in
/-- Behind a reference, the region of a binding is another one than that of its text. -/
theorem slice_ampersand :
    read [] ampersand = (.ok (textDocument [.text "&", .binding fieldBinding] 24), []) ∧
    SourceMap.slice ⟨ampersand⟩ fieldBinding.span = encodeUtf8 ['m'] := by
  refine ⟨?_, by decide⟩
  have hread : Markup.read ampersand = .ok (textMarkup ampersand "&\x7ba\x7d" 17 24) := by
    decide +kernel
  rw [read, hread, ampersand]
  cbv

end Document
end UiMarkup
