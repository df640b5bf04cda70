import UiMarkup.Lint.WidgetRules
import UiMarkup.Proofs.Document.Provenance
import UiMarkup.Proofs.Markup.Writing
import UiMarkup.Proofs.Widget.Routing

/-!
What becomes of an attribute with a state in front of its name. The reader of widgets makes styles
of such attributes and a rule reports the ones that it takes to be unfit; but each reads the names
in a way of its own, and the two together do not cover every attribute.
-/

namespace UiMarkup

namespace Widget

/-- The style of a state is made up of static values that the element has for it, and a
given one is among them. -/
def Styled (w : Widget) (source : SourceMap) (e : Element) (s : WidgetState) (name text : String) :
    Prop :=
  ∃ values style, OrderedMap.get? values name = some text ∧
    (∀ p ∈ values, ∃ a ∈ e.attributes, Route.ofAttribute source a =
      .ok (.state s p.1 (.static p.2))) ∧
    Style.ofAttributes values = .ok (some style) ∧ w.states.get? s = some style

variable {custom : List String} {source : SourceMap} {e : Element} {w : Widget}
  {before after : List Attribute} {a : Attribute}

theorem styled_of_madeOf (h : w.MadeOf custom source e)
    (attributes : e.attributes = before ++ a :: after) {s : WidgetState} {name text : String}
    (here : Route.ofAttribute source a = .ok (.state s name (.static text)))
    (last : ∀ b ∈ after, ∀ v, Route.ofAttribute source b ≠ .ok (.state s name v))
    (known : name ∈ Style.attributeNames) : w.Styled source e s name text := by
  obtain ⟨routed, hrouted, hassembled⟩ := h.assembled
  have hvalue := Routed.stateValue?_of_ofAttributes (attributes ▸ hrouted) here last
  obtain ⟨values, hvalues, hvalue⟩ := Option.bind_eq_some_iff.mp hvalue
  have hstatic : values.statics.get? name = some text := AttributeMap.get?_statics hvalue
  obtain ⟨style, hstyle, hstates⟩ :=
    get?_readStates hassembled.states hvalues known (by simp [OrderedMap.has, hstatic])
  refine ⟨values.statics, style, hstatic, fun p hp => ?_, hstyle, hstates⟩
  have hmem := AttributeMap.mem_of_mem_statics hp
  exact Routed.exists_of_mem_states hrouted (OrderedMap.mem_of_get?_eq_some hvalues) hmem

end Widget

namespace Lint.ResponsiveAttributeRule

theorem stateFinding?_eq_none_iff {c : Context} {e : Element} {name : String} :
    stateFinding? c e name = none ↔
    e.tag ∈ classTags ∨
      ∃ s base, AttributeName.splitSelector? name = some (.single s, base) ∧
        base ∈ Style.attributeNames := by
  rw [stateFinding?]
  split
  · next htag => exact iff_of_true rfl (.inl (by simpa using htag))
  · next htag =>
    have other : e.tag ∉ classTags := by simpa using htag
    split
    · next hsplit => simp [hsplit, other]
    · next selector base hsplit =>
      cases hsingle : selector.isSingle with
      | false =>
          have hne : ∀ s, selector ≠ .single s := by
            rintro s rfl
            cases hsingle
          simp [hsplit, other, hne]
      | true =>
          obtain ⟨s, rfl⟩ := StateSelector.eq_single_of_isSingle hsingle
          by_cases hknown : base ∈ Style.attributeNames <;> simp [hsplit, other, hknown]

/-- The attributes for states that are neither reported nor part of a style: expressions, values
that a later attribute replaces, names that say one state several times, and what is no style in a
widget called as the elements of style classes are. -/
inductive Unheeded (source : SourceMap) (e : Element) (a : Attribute) (after : List Attribute) :
    Route → Prop
  | dynamic {s : WidgetState} {name : String} {v : AttributeValue}
      (known : name ∈ Style.attributeNames) (expression : v.static? = none) :
      Unheeded source e a after (.state s name v)
  | replaced {s : WidgetState} {name : String} {v v' : AttributeValue} {b : Attribute}
      (known : name ∈ Style.attributeNames) (later : b ∈ after)
      (again : Route.ofAttribute source b = .ok (.state s name v')) :
      Unheeded source e a after (.state s name v)
  | repeated {s : WidgetState} {name : String} {v : AttributeValue}
      (known : name ∈ Style.attributeNames)
      (split : AttributeName.splitSelector? a.name = some (.single s, name)) :
      Unheeded source e a after (.plain a.name v)
  | classTag {route : Route} (tag : e.tag ∈ classTags)
      (unfit : ∀ s name v, route = .state s name v → name ∉ Style.attributeNames) :
      Unheeded source e a after route

variable {custom : List String} {source : SourceMap} {c : Context} {e : Element} {w : Widget}
  {before after : List Attribute} {a : Attribute} {route : Route}

theorem stateFinding?_of_unheeded (here : Route.ofAttribute source a = .ok route)
    (colon : ':' ∈ a.name.toList) (h : Unheeded source e a after route) :
    stateFinding? c e a.name = none := by
  have named : a.name ≠ "id" := fun heq => absurd (heq ▸ colon) (by decide)
  have single {s : WidgetState} {name : String} {v : AttributeValue}
      (hstate : Route.ofAttribute source a = .ok (.state s name v)) :
      AttributeName.splitSelector? a.name = some (.single s, name) :=
    AttributeName.splitSelector?_of_singleState? (Route.singleState?_of_ofAttribute hstate named)
  rw [stateFinding?_eq_none_iff]
  cases h with
  | dynamic known _ => exact .inr ⟨_, _, single here, known⟩
  | replaced known _ _ => exact .inr ⟨_, _, single here, known⟩
  | repeated known split => exact .inr ⟨_, _, split, known⟩
  | classTag tag _ => exact .inl tag

/-- What the reader and the rule do with one attribute that has a colon in its name. -/
theorem reported_or_styled_or_unheeded (made : w.MadeOf custom source e)
    (attributes : e.attributes = before ++ a :: after) (colon : ':' ∈ a.name.toList)
    (here : Route.ofAttribute source a = .ok route) (plain : ∀ event, route ≠ .event event)
    (always : ∀ b name v, route ≠ .breakpoint b name v) :
    (∃ f, stateFinding? c e a.name = some f) ∨
      (∃ s name text, route = .state s name (.static text) ∧ name ∈ Style.attributeNames ∧
        w.Styled source e s name text) ∨
      Unheeded source e a after route := by
  have named : a.name ≠ "id" := fun heq => absurd (heq ▸ colon) (by decide)
  have reported (h : stateFinding? c e a.name ≠ none) : ∃ f, stateFinding? c e a.name = some f :=
    Option.ne_none_iff_exists'.mp h
  obtain ⟨s, name, v, rfl, hsingle⟩ | ⟨v, rfl⟩ := Route.ofAttribute_eq_ok here named plain always
  · by_cases known : name ∈ Style.attributeNames
    · cases v with
      | binding _ | interpolated _ => exact .inr (.inr (.dynamic known rfl))
      | static text =>
          by_cases hlater : ∃ b ∈ after, ∃ v, Route.ofAttribute source b = .ok (.state s name v)
          · obtain ⟨b, hb, v', hagain⟩ := hlater
            exact .inr (.inr (.replaced known hb hagain))
          · push Not at hlater
            exact .inr
              (.inl ⟨s, name, text, rfl, known,
                Widget.styled_of_madeOf made attributes here hlater known⟩)
    · by_cases tag : e.tag ∈ classTags
      · refine .inr (.inr (.classTag tag ?_))
        rintro _ _ _ ⟨⟩
        exact known
      · refine .inl (reported fun hnone => ?_)
        obtain htag | ⟨s', base, hsplit, hbase⟩ := stateFinding?_eq_none_iff.mp hnone
        · exact tag htag
        · -- both readings of the name give the same attribute
          rw [AttributeName.splitSelector?_of_singleState? hsingle] at hsplit
          obtain ⟨-, rfl⟩ := Prod.mk.inj (Option.some.inj hsplit)
          exact known hbase
  · by_cases hnone : stateFinding? c e a.name = none
    · obtain tag | ⟨s, base, hsplit, known⟩ := stateFinding?_eq_none_iff.mp hnone
      · exact .inr (.inr (.classTag tag nofun))
      · exact .inr (.inr (.repeated known hsplit))
    · exact .inl (reported hnone)

/-- Every attribute of a widget that has a colon in its name, and is not for an event or a
breakpoint, is reported by the rule, or is part of the style of a state, or is one of those that
neither heeds, and about these the rule says nothing. -/
theorem heeds_of_read {bytes : List UInt8} {d : Document} {notices : List Notice}
    (h : Document.read custom bytes = (.ok d, notices)) :
    ∃ m, Markup.read bytes = .ok m ∧ ∀ text settings, ∃ findings,
      rule.check ⟨text, d, m, settings⟩ = .ok findings ∧
      ∀ e ∈ Document.widgetElements m.root, ∃ w ∈ d.walk, w.MadeOf custom m.source e ∧
        ∀ before a after, e.attributes = before ++ a :: after → ':' ∈ a.name.toList →
          ∃ route, Route.ofAttribute m.source a = .ok route ∧
            ((∀ event, route ≠ .event event) → (∀ b name v, route ≠ .breakpoint b name v) →
              (∃ f ∈ findings, stateFinding? ⟨text, d, m, settings⟩ e a.name = some f) ∨
              (∃ s name text, route = .state s name (.static text) ∧ name ∈ Style.attributeNames ∧
                w.Styled m.source e s name text) ∨
              (Unheeded m.source e a after route ∧
                stateFinding? ⟨text, d, m, settings⟩ e a.name = none)) := by
  obtain ⟨m, hm, hreturns⟩ := Document.exists_markup_of_read h
  refine ⟨m, hm, fun text settings => ⟨_, rfl, fun e he => ?_⟩⟩
  obtain ⟨w, hw, made⟩ := Document.exists_mem_walk_of_ofMarkup hreturns e he
  refine ⟨w, hw, made, fun before a after attributes colon => ?_⟩
  obtain ⟨routed, hrouted, -⟩ := made.assembled
  obtain ⟨_, route, _, here, -⟩ := Routed.exists_of_ofAttributes (attributes ▸ hrouted)
  refine ⟨route, here, fun plain always => ?_⟩
  obtain ⟨f, hfinding⟩ | hstyled | hunheeded :=
    reported_or_styled_or_unheeded (c := ⟨text, d, m, settings⟩) made
    attributes colon here plain always
  · refine .inl ⟨f, ?_, hfinding⟩
    refine List.mem_append_right _
      (List.mem_flatMap.mpr ⟨e, Document.mem_walk_of_mem_widgetElements he, ?_⟩)
    refine List.mem_filterMap.mpr ⟨a, attributes ▸ by simp, ?_⟩
    rw [if_pos (by simpa using colon), hfinding]
  · exact .inr (.inl hstyled)
  · exact .inr (.inr ⟨hunheeded, stateFinding?_of_unheeded here colon hunheeded⟩)

/-! ### A button with two attributes for a state -/

section Dashed

open Text

variable (source : SourceMap) (s s₁ s₂ s₃ : Span)

/-- A button with a dashed border and, where the state is said twice, half as opaque. -/
def dashed : Element where
  tag := "button"
  attributes := [⟨"label", "b", .origin⟩, ⟨"hover:border_style", "dashed", .origin⟩,
    ⟨"hover:hover:opacity", "0.5", .origin⟩]
  children := []
  span := .origin

def dashedElement : Element :=
  ⟨"button", [⟨"label", "b", s₁⟩, ⟨"hover:border_style", "dashed", s₂⟩,
    ⟨"hover:hover:opacity", "0.5", s₃⟩], [], s⟩

def dashedButton : Widget where
  kind := .builtin .button
  attributes := [("label", .static "b"), ("hover:hover:opacity", .static "0.5")]
  states := [(.hover, { border := some { style := .dashed } })]
  span := s

theorem simple_dashed : ∀ d ∈ dashed.walk, d.Simple := by
  intro d hd
  obtain rfl := List.mem_singleton.mp hd
  exact ⟨by decide, by decide, by decide⟩

theorem ofAttribute_dashed : Route.ofAttribute source ⟨"hover:border_style", "dashed", s⟩ =
    .ok (.state .hover "border_style" (.static "dashed")) :=
  (Route.ofAttribute_eq (by decide) rfl (by decide) s).trans rfl

theorem ofAttribute_repeated : Route.ofAttribute source ⟨"hover:hover:opacity", "0.5", s⟩ =
    .ok (.plain "hover:hover:opacity" (.static "0.5")) :=
  (Route.ofAttribute_eq (by decide) rfl (by decide) s).trans rfl

theorem build_dashed :
    (Widget.build [] source (dashedElement s s₁ s₂ s₃)).run [] = (.ok (dashedButton s), []) := by
  have hlabel : Route.ofAttribute source ⟨"label", "b", s₁⟩ = .ok (.plain "label" (.static "b")) :=
    (Route.ofAttribute_eq (by decide) rfl (by decide) s₁).trans rfl
  have hrouted : Routed.ofAttributes source (dashedElement s s₁ s₂ s₃).attributes = .ok
      { attributes := [("label", .static "b"), ("hover:hover:opacity", .static "0.5")]
        states := [(.hover, [("border_style", .static "dashed")])] } := by
    rw [Routed.ofAttributes, dashedElement]
    simp only [List.mapM_cons, hlabel, ofAttribute_dashed, ofAttribute_repeated]
    rfl
  refine (Widget.run_bind (a := Kind.builtin .button) rfl).trans ?_
  refine (Widget.run_bind (congrArg (·, []) hrouted)).trans ?_
  refine (Widget.run_bind (a := []) rfl).trans ?_
  refine (Widget.run_bind rfl).trans ?_
  refine (Widget.run_bind (a := ((none, none) : Option Layout × Option Style)) rfl).trans ?_
  refine (Widget.run_bind (a := (dashedButton s).states) rfl).trans ?_
  refine (Widget.run_bind rfl).trans ?_
  refine (Widget.run_bind rfl).trans ?_
  rfl

theorem read_dashed : ∃ s s₁ s₂ s₃, Markup.read (encodeUtf8 dashed.write) =
      .ok ⟨dashedElement s s₁ s₂ s₃, ⟨encodeUtf8 dashed.write⟩, false⟩ ∧
    Document.read [] (encodeUtf8 dashed.write) = (.ok { root := dashedButton s }, []) := by
  obtain ⟨s, s₁, s₂, s₃, hplaced⟩ : ∃ s s₁ s₂ s₃,
      dashed.placed ⟨encodeUtf8 dashed.write⟩ 0 = dashedElement s s₁ s₂ s₃ := ⟨_, _, _, _, rfl⟩
  have hread := Element.read_write simple_dashed
  rw [hplaced] at hread
  refine ⟨s, s₁, s₂, s₃, hread, ?_⟩
  rw [Document.read, hread]
  exact (Widget.run_bind (build_dashed _ s s₁ s₂ s₃)).trans rfl

theorem stateFinding?_dashed {c : Context} {e : Element} :
    stateFinding? c e "hover:border_style" = none := by
  have hsplit : AttributeName.splitSelector? "hover:border_style" =
      some (.single .hover, "border_style") := by rfl
  exact stateFinding?_eq_none_iff.mpr (.inr ⟨_, _, hsplit, by decide⟩)

theorem stateFinding?_repeated {c : Context} {e : Element} :
    stateFinding? c e "hover:hover:opacity" = none := by
  have hsplit : AttributeName.splitSelector? "hover:hover:opacity" =
      some (.single .hover, "opacity") := by rfl
  exact stateFinding?_eq_none_iff.mpr (.inr ⟨_, _, hsplit, by decide⟩)

theorem heeds_of_read_dashed : ∃ m d, Markup.read (encodeUtf8 dashed.write) = .ok m ∧
    Document.read [] (encodeUtf8 dashed.write) = (.ok d, []) ∧
    d.root.Styled m.source m.root .hover "border_style" "dashed" := by
  obtain ⟨s, s₁, s₂, s₃, hmarkup, hread⟩ := read_dashed
  refine ⟨_, _, hmarkup, hread, ?_⟩
  obtain ⟨m, hm, hall⟩ := heeds_of_read hread
  obtain rfl := Except.ok.inj (hmarkup.symm.trans hm)
  obtain ⟨findings, -, hheeds⟩ := hall [] {}
  obtain ⟨w, hw, -, hheeds⟩ := hheeds _ List.mem_cons_self
  obtain rfl := List.mem_singleton.mp hw
  have colon : ':' ∈ "hover:border_style".toList := by decide
  have untagged : "button" ∉ classTags := by decide
  obtain ⟨route, hroute, hheeds⟩ := hheeds [⟨"label", "b", s₁⟩] ⟨"hover:border_style", "dashed", s₂⟩
    [⟨"hover:hover:opacity", "0.5", s₃⟩] rfl colon
  obtain rfl := Except.ok.inj ((ofAttribute_dashed _ s₂).symm.trans hroute)
  obtain ⟨f, -, hfinding⟩ | ⟨_, _, _, heq, -, hstyled⟩ | ⟨hunheeded, -⟩ :=
    hheeds (by rintro _ ⟨⟩) (by rintro _ _ _ ⟨⟩)
  · cases stateFinding?_dashed.symm.trans hfinding
  · cases heq
    exact hstyled
  · cases hunheeded with
    | dynamic _ expression => cases expression
    | replaced _ later again =>
        obtain rfl := List.mem_singleton.mp later
        cases (ofAttribute_repeated _ s₃).symm.trans again
    | classTag tag _ => exact absurd tag untagged

/-- The attribute whose state is said twice gives neither a style nor a finding. -/
theorem check_dashed : ∃ m d, Markup.read (encodeUtf8 dashed.write) = .ok m ∧
    Document.read [] (encodeUtf8 dashed.write) = (.ok d, []) ∧
    d.root.states = [(.hover, { border := some { style := .dashed } })] ∧
    ∀ text settings, rule.check ⟨text, d, m, settings⟩ = .ok [] := by
  obtain ⟨s, s₁, s₂, s₃, hmarkup, hread⟩ := read_dashed
  refine ⟨_, _, hmarkup, hread, rfl, fun text settings => ?_⟩
  let m : Markup := ⟨dashedElement s s₁ s₂ s₃, ⟨encodeUtf8 dashed.write⟩, false⟩
  let c : Context := ⟨text, { root := dashedButton s }, m, settings⟩
  have helement : elementFindings c m.root = [] := by
    simp [elementFindings, m, dashedElement, stateFinding?_dashed, stateFinding?_repeated]
  have hcheck : rule.check c = .ok (elementFindings c m.root ++ []) := rfl
  rw [hcheck, helement]
  rfl

end Dashed

end Lint.ResponsiveAttributeRule
end UiMarkup
