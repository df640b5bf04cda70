import UiMarkup.Proofs.Document.Ends
import UiMarkup.Proofs.Widget.Classification

/-!
Reading the attributes of a widget ends with their values or with an error of the document, as long
as the numbers in them convert. There are values only if all groups are expressions. A parameter of
an event need not be one.
-/

namespace UiMarkup

open ReadFault (IsError)

/-! ### Values -/

/-- The text between the braces of a group. -/
def Segment.inner? : Segment → Option (List Char)
  | .literal _ => none
  | .group inner => some inner

/-- The texts between braces in a value. -/
def AttributeValue.groups (value : String) : List (List Char) :=
  (Segment.split value.toList).filterMap Segment.inner?

theorem Segment.mem_filterMap_inner? {inner : List Char} {segments : List Segment} :
    inner ∈ segments.filterMap Segment.inner? ↔ .group inner ∈ segments := by
  rw [List.mem_filterMap]
  constructor
  · rintro ⟨s, hs, h⟩
    cases s with
    | literal _ => cases h
    | group _ => exact Option.some.inj h ▸ hs
  · exact fun h => ⟨_, h, rfl⟩

theorem ValuePlace.bind_ends (p : ValuePlace) (before : List Char) {text : List Char}
    (h : ExprParser.NumbersConvert text) :
    Ends (fun _ => ∃ e, ExprParser.parse text = .ok e) (fun f => ∃ e span, f = .malformed e span)
      (p.bind before text) := by
  obtain ⟨e, he⟩ | ⟨err, herr⟩ := ExprParser.parse_eq_ok_or_malformed h
  · obtain ⟨b, hb, -⟩ := p.bind_eq_ok_of_parse before he
    exact hb ▸ .ok ⟨e, he⟩
  · obtain ⟨span, hspan⟩ := p.bind_eq_error_of_parse before herr
    exact hspan ▸ .error ⟨err, span, rfl⟩

theorem AttributeValue.partsOf_ends (p : ValuePlace) (before : List Char) {segments : List Segment}
    (h : ∀ inner, .group inner ∈ segments → ExprParser.NumbersConvert inner) :
    Ends (fun _ => ∀ inner, .group inner ∈ segments → ∃ e, ExprParser.parse inner = .ok e) IsError
      (partsOf p before segments) := by
  induction segments generalizing before with
  | nil => exact .ok (by simp)
  | cons s more ih =>
      have hmore (before : List Char) := ih before fun inner hi =>
        h inner (List.mem_cons_of_mem s hi)
      cases s with
      | literal text =>
          rw [partsOf]
          refine (hmore _).bind fun parts hparts => ?_
          simpa using hparts
      | group inner =>
          rw [partsOf]
          have hb : Ends (fun _ => ∃ e, ExprParser.parse inner = .ok e) IsError
              ((p.bind (before ++ ['\x7b']) inner).mapError faultOf) := by
            refine (p.bind_ends _ (h inner (by simp))).mapError ?_
            rintro _ ⟨e, span, rfl⟩
            exact trivial
          refine hb.bind fun b he => ?_
          refine (hmore _).bind fun parts hparts => ?_
          simp only [List.mem_cons, Segment.group.injEq]
          exact .ok fun other hother => hother.elim (fun heq => heq ▸ he) (hparts other)

theorem AttributeValue.classify_ends (p : ValuePlace) {value : String}
    (h : ∀ inner ∈ groups value, ExprParser.NumbersConvert inner) :
    Ends (fun _ => ∀ inner ∈ groups value, ∃ e, ExprParser.parse inner = .ok e) IsError
      (classify p value) := by
  simp only [groups, Segment.mem_filterMap_inner?] at h ⊢
  exact (partsOf_ends p [] h).bind fun parts hparts => .ok hparts

/-! ### Events -/

namespace EventBinding

/-- The text that is read as the expression of a parameter; there is none without a parameter or
when it is a text in quotes. -/
def paramText? (value : String) : Option (List Char) :=
  match Text.cut? ':' value.toList with
  | some (_, param) => if (quotedText? param).isNone then some (withoutBraces param) else none
  | none => none

theorem parse_of_no_event {name : String} (h : EventKind.ofAttribute? name = none) (value : String)
    (place : ValuePlace) : parse name value place = .ok none := by
  rw [parse, h]

theorem parse_eq_ok_none_iff {name value : String} {place : ValuePlace} :
    parse name value place = .ok none ↔ EventKind.ofAttribute? name = none := by
  refine ⟨fun hparse => ?_, fun h => parse_of_no_event h value place⟩
  rw [parse] at hparse
  split at hparse
  · assumption
  · split at hparse
    · cases hparse
    · dsimp only at hparse
      split at hparse
      · cases hparse
      · split at hparse <;> cases hparse

theorem parse_of_no_colon {name value : String} {event : EventKind}
    (h : EventKind.ofAttribute? name = some event) (colon : ':' ∉ value.toList)
    (place : ValuePlace) :
    parse name value place = .ok (some ⟨event, value, none, place.span⟩) := by
  rw [parse, h, Text.cut?_eq_none_iff.mpr colon]

theorem exists_parse {name value : String} {event : EventKind}
    (h : EventKind.ofAttribute? name = some event) (place : ValuePlace)
    (hnumbers : ∀ text ∈ paramText? value, ExprParser.NumbersConvert text) :
    ∃ b, parse name value place = .ok (some b) := by
  rw [parse, h]
  cases hcut : Text.cut? ':' value.toList with
  | none => exact ⟨_, rfl⟩
  | some parts =>
      obtain ⟨handler, param⟩ := parts
      dsimp only
      cases hquoted : quotedText? param with
      | some text => exact ⟨_, rfl⟩
      | none =>
          have hends := place.bind_ends (handler ++ [':'] ++ param.takeWhile (· == '\x7b'))
            (hnumbers (withoutBraces param) (by simp [paramText?, hcut, hquoted]))
          dsimp only
          split
          · exact ⟨_, rfl⟩
          · exact ⟨_, rfl⟩
          · rename_i fault hfault
            rw [hfault] at hends
            obtain ⟨e, span, heq⟩ := Ends.error_iff.mp hends
            cases heq

/-- A parameter that is no expression makes all of the value the name of a handler. -/
theorem parse_of_malformed {name value : String} {event : EventKind} {text : List Char}
    {err : ExprError} (h : EventKind.ofAttribute? name = some event)
    (htext : paramText? value = some text) (herr : ExprParser.parse text = .error (.malformed err))
    (place : ValuePlace) :
    parse name value place = .ok (some ⟨event, value, none, place.span⟩) := by
  rw [parse, h]
  rw [paramText?] at htext
  cases hcut : Text.cut? ':' value.toList with
  | none => simp [hcut] at htext
  | some parts =>
      obtain ⟨handler, param⟩ := parts
      cases hquoted : quotedText? param with
      | some _ => simp [hcut, hquoted] at htext
      | none =>
          obtain rfl : withoutBraces param = text := by simpa [hcut, hquoted] using htext
          obtain ⟨span, hspan⟩ := place.bind_eq_error_of_parse
            (handler ++ [':'] ++ param.takeWhile (· == '\x7b')) herr
          dsimp only
          rw [hquoted]
          dsimp only
          rw [hspan]

end EventBinding

/-! ### Attributes -/

namespace Attribute

/-- The texts in braces in an attribute of a widget. The name of the widget and events have none. -/
def groups (a : Attribute) : List (List Char) :=
  if a.name = "id" ∨ (EventKind.ofAttribute? a.name).isSome then []
  else AttributeValue.groups a.value

/-- The text that is read as the parameter of an event. -/
def param? (a : Attribute) : Option (List Char) :=
  if (EventKind.ofAttribute? a.name).isSome then EventBinding.paramText? a.value else none

/-- The numbers in all expressions of an attribute have a value. -/
def NumbersConvert (a : Attribute) : Prop :=
  (∀ text ∈ a.groups, ExprParser.NumbersConvert text) ∧ ∀ text ∈ a.param?,
    ExprParser.NumbersConvert text

/-- All groups are expressions. -/
def Readable (a : Attribute) : Prop := ∀ text ∈ a.groups, ∃ e, ExprParser.parse text = .ok e

end Attribute

theorem Route.ofAttribute_ends (source : SourceMap) {a : Attribute} (h : a.NumbersConvert) :
    Ends (fun _ => a.Readable) IsError (ofAttribute source a) := by
  rw [ofAttribute]
  by_cases hid : a.name = "id"
  · simp [hid, Attribute.Readable, Attribute.groups]
  · simp only [hid, if_false]
    cases hevent : EventKind.ofAttribute? a.name with
    | some event =>
        obtain ⟨b, hb⟩ := EventBinding.exists_parse hevent ⟨a.span, some source⟩
          (by simpa [Attribute.param?, hevent] using h.2)
        rw [hb]
        exact .ok (by simp [Attribute.Readable, Attribute.groups, hevent])
    | none =>
        have hgroups : a.groups = AttributeValue.groups a.value := by
          simp [Attribute.groups, hid, hevent]
        have hvalue := AttributeValue.classify_ends ⟨a.span, some source⟩ (hgroups ▸ h.1)
        rw [← hgroups] at hvalue
        rw [EventBinding.parse_of_no_event hevent]
        -- wherever the value goes, it is classified first
        cases AttributeName.splitBreakpoint? a.name with
        | some _ => exact hvalue.bind fun _ h => .ok h
        | none =>
            cases singleState? a.name with
            | some _ => exact hvalue.bind fun _ h => .ok h
            | none => exact hvalue.bind fun _ h => .ok h

theorem Routed.ofAttributes_ends (source : SourceMap) {attributes : List Attribute}
    (h : ∀ a ∈ attributes, a.NumbersConvert) :
    Ends (fun _ => ∀ a ∈ attributes, a.Readable) IsError (ofAttributes source attributes) :=
  (Ends.mapM fun a ha => Route.ofAttribute_ends source (h a ha)).bind fun _ h => .ok h

end UiMarkup
