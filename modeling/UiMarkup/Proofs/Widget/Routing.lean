import UiMarkup.Proofs.Document.Provenance
import UiMarkup.Proofs.NestedMaps
import UiMarkup.Proofs.Widget.Look

/-!
What becomes of the routed attributes of a widget. Under a state or a breakpoint each name has
one value, the last one routed there; a plain attribute stays one. The styles of states are
those of their static values.
-/

namespace UiMarkup

/-! ### Names with states -/

namespace AttributeName

open Text

theorem cutLast?_of_cut? {sep : Char} {cs before after : List Char}
    (h : cut? sep cs = some (before, after)) (last : sep ∉ after) :
    cutLast? sep cs = some (before, after) := by
  obtain ⟨rfl, -⟩ := eq_append_of_cut? h
  exact cutLast?_append before last

theorem parts_of_singleState? {name base : String} {s : WidgetState}
    (h : Route.singleState? name = some (s, base)) :
    ∃ before after, cut? ':' name.toList = some (before, after) ∧ ':' ∉ after ∧ after ≠ [] ∧
      WidgetState.ofText? (String.ofList before) = some s ∧ base = String.ofList after := by
  rw [Route.singleState?] at h
  split at h
  · next s' base' hsplit =>
    obtain ⟨⟨before', after'⟩, hfirst, hsplit⟩ := Option.bind_eq_some_iff.mp hsplit
    obtain ⟨s'', hstate, hsplit⟩ := Option.bind_eq_some_iff.mp hsplit
    obtain ⟨rfl, rfl⟩ := Prod.mk.inj (Option.some.inj hsplit)
    rw [splitFirst?] at hfirst
    split at hfirst
    · next before after hcut =>
      split at hfirst
      · cases hfirst
      · next hempty =>
        obtain ⟨rfl, rfl⟩ := Prod.mk.inj (Option.some.inj hfirst)
        split at h
        · cases h
        · next hlast =>
          obtain ⟨rfl, rfl⟩ := Prod.mk.inj (Option.some.inj h)
          exact ⟨before, after, hcut, by simpa using hlast, by simpa using hempty, hstate, rfl⟩
    · cases hfirst
  · cases h

/-- A name with one state is also read as a selector, of that state alone. -/
theorem splitSelector?_of_singleState? {name base : String} {s : WidgetState}
    (h : Route.singleState? name = some (s, base)) :
    splitSelector? name = some (.single s, base) := by
  obtain ⟨before, after, hcut, hlast, hempty, hstate, rfl⟩ := parts_of_singleState? h
  have hbefore : ':' ∉ before := (eq_append_of_cut? hcut).2
  have hselector : StateSelector.ofList? [s] = some (.single s) := by cases s <;> rfl
  rw [splitSelector?, splitLast?, cutLast?_of_cut? hcut hlast]
  simp [pieces_of_not_mem hbefore, hstate, hempty, hselector]

end AttributeName

theorem StateSelector.eq_single_of_isSingle {s : StateSelector} (h : s.isSingle = true) :
    ∃ w, s = .single w := by
  obtain ⟨states, canonical, ne_nil⟩ := s
  obtain ⟨w, rfl⟩ := List.length_eq_one_iff.mp (of_decide_eq_true h)
  exact ⟨w, rfl⟩

/-! ### Sorting -/

/-- An attribute that is neither the identifier nor for an event or a breakpoint is for the state in
its name, if it has one. -/
theorem Route.ofAttribute_eq_ok {source : SourceMap} {a : Attribute} {route : Route}
    (h : ofAttribute source a = .ok route) (named : a.name ≠ "id")
    (plain : ∀ event, route ≠ .event event) (always : ∀ b name v, route ≠ .breakpoint b name v) :
    (∃ s name v, route = .state s name v ∧ singleState? a.name = some (s, name)) ∨ ∃ v,
      route = .plain a.name v := by
  rw [ofAttribute, if_neg named] at h
  obtain ⟨event, -, h⟩ := bind_eq_ok_iff.mp h
  split at h
  · obtain rfl := Except.ok.inj h
    exact absurd rfl (plain _)
  · split at h
    · obtain ⟨v, -, h⟩ := bind_eq_ok_iff.mp h
      obtain rfl := Except.ok.inj h
      exact absurd rfl (always _ _ _)
    · split at h
      · next s name hstate =>
        obtain ⟨v, -, h⟩ := bind_eq_ok_iff.mp h
        obtain rfl := Except.ok.inj h
        exact .inl ⟨s, name, v, rfl, hstate⟩
      · obtain ⟨v, -, h⟩ := bind_eq_ok_iff.mp h
        obtain rfl := Except.ok.inj h
        exact .inr ⟨v, rfl⟩

theorem Route.singleState?_of_ofAttribute {source : SourceMap} {a : Attribute} {s : WidgetState}
    {name : String} {v : AttributeValue} (h : ofAttribute source a = .ok (.state s name v))
    (named : a.name ≠ "id") : singleState? a.name = some (s, name) := by
  have plain : ∀ event, Route.state s name v ≠ .event event := by
    rintro event ⟨⟩
  have always : ∀ b name' v', Route.state s name v ≠ .breakpoint b name' v' := by
    rintro b name' v' ⟨⟩
  obtain ⟨s', name', v', heq, hsingle⟩ | ⟨v', heq⟩ := ofAttribute_eq_ok h named plain always
  · cases heq
    exact hsingle
  · cases heq

theorem AttributeValue.classify_of_static {value : String} (h : '\x7b' ∉ value.toList)
    (place : ValuePlace) : classify place value = .ok (.static value) := by
  have hsplit : Segment.split value.toList = Segment.literalIf value.toList := by
    rw [Segment.split, Text.cut?_eq_none_iff.mpr h]
  rw [classify, hsplit, Segment.literalIf]
  cases hvalue : value.toList with
  | nil =>
      obtain rfl : value = "" := String.toList_injective hvalue
      rfl
  | cons c cs =>
      change Except.ok (AttributeValue.static (String.ofList (c :: cs))) = _
      rw [← hvalue, String.ofList_toList]

/-- The route of a text without braces, where its name is not that of an event. -/
theorem Route.ofAttribute_eq {source : SourceMap} {name value : String} (named : name ≠ "id")
    (plain : EventKind.ofAttribute? name = none) (static : '\x7b' ∉ value.toList) (span : Span) :
    ofAttribute source ⟨name, value, span⟩ =
      .ok (match AttributeName.splitBreakpoint? name, singleState? name with
        | some (b, base), _ => .breakpoint b base (.static value)
        | none, some (s, base) => .state s base (.static value)
        | none, none => .plain name (.static value)) := by
  rw [ofAttribute, if_neg named, EventBinding.parse_of_no_event plain,
    AttributeValue.classify_of_static static]
  cases AttributeName.splitBreakpoint? name with
  | some _ => rfl
  | none => cases singleState? name <;> rfl

namespace Route

def id? : Route → Option String
  | .id value => some value
  | _ => none

def event? : Route → Option EventBinding
  | .event e => some e
  | _ => none

def breakpoint? : Route → Option ((Breakpoint × String) × AttributeValue)
  | .breakpoint b name value => some ((b, name), value)
  | _ => none

def state? : Route → Option ((WidgetState × String) × AttributeValue)
  | .state s name value => some ((s, name), value)
  | _ => none

def plain? : Route → Option (String × AttributeValue)
  | .plain name value => some (name, value)
  | _ => none

end Route

namespace Routed

/-- Of some attributes, all events and the last value of each other place. -/
structure Holds (r : Routed) (routes : List Route) : Prop where
  id : r.id = (routes.filterMap Route.id?).getLast?
  events : r.events = routes.filterMap Route.event?
  breakpoints : r.breakpoints.NestedLast (routes.filterMap Route.breakpoint?)
  states : r.states.NestedLast (routes.filterMap Route.state?)
  attributes : r.attributes.HoldsLast (routes.filterMap Route.plain?)

variable {r : Routed} {routes : List Route}

theorem filterMap_concat {β : Type} (part : Route → Option β) (routes : List Route)
    (route : Route) :
    (routes ++ [route]).filterMap part = routes.filterMap part ++ (part route).toList := by
  rw [List.filterMap_append, List.filterMap_cons]
  cases part route <;> rfl

theorem Holds.add (h : r.Holds routes) (route : Route) :
    (r.add route).Holds (routes ++ [route]) where
  id := by
    rw [filterMap_concat]
    cases route with
    | id value => simp [Routed.add, Route.id?]
    | _ => simpa [Routed.add, Route.id?] using h.id
  events := by
    rw [filterMap_concat]
    cases route with
    | event e => simp [Routed.add, Route.event?, h.events]
    | _ => simpa [Routed.add, Route.event?] using h.events
  breakpoints := by
    rw [filterMap_concat]
    cases route with
    | breakpoint b name value => exact h.breakpoints.put b name value
    | _ => simpa [Routed.add, Route.breakpoint?] using h.breakpoints
  states := by
    rw [filterMap_concat]
    cases route with
    | state s name value => exact h.states.put s name value
    | _ => simpa [Routed.add, Route.state?] using h.states
  attributes := by
    rw [filterMap_concat]
    cases route with
    | plain name value => exact h.attributes.put name value
    | _ => simpa [Routed.add, Route.plain?] using h.attributes

theorem holds_foldl (routes : List Route) : (routes.foldl add {}).Holds routes := by
  induction routes using List.reverseRecOn with
  | nil => exact ⟨rfl, rfl, .nil, .nil, .nil⟩
  | append_singleton routes route ih =>
      rw [List.foldl_concat]
      exact ih.add route

/-- The values are those of the attributes before one, of that one and of those after it. -/
theorem exists_of_ofAttributes {source : SourceMap} {before after : List Attribute} {a : Attribute}
    {r : Routed} (h : ofAttributes source (before ++ a :: after) = .ok r) :
    ∃ (front : List Route) (route : Route) (back : List Route),
      Route.ofAttribute source a = .ok route ∧
      after.mapM (Route.ofAttribute source) = .ok back ∧ r.Holds (front ++ route :: back) := by
  obtain ⟨routes, hroutes, h⟩ := bind_eq_ok_iff.mp h
  obtain rfl := Except.ok.inj h
  rw [List.mapM_append] at hroutes
  obtain ⟨front, -, hroutes⟩ := bind_eq_ok_iff.mp hroutes
  obtain ⟨rest, hrest, hroutes⟩ := bind_eq_ok_iff.mp hroutes
  obtain rfl := Except.ok.inj hroutes
  rw [List.mapM_cons] at hrest
  obtain ⟨route, hroute, hrest⟩ := bind_eq_ok_iff.mp hrest
  obtain ⟨back, hback, hrest⟩ := bind_eq_ok_iff.mp hrest
  obtain rfl := Except.ok.inj hrest
  exact ⟨front, route, back, hroute, hback, holds_foldl _⟩

/-- The value of a name under a state. -/
def stateValue? (r : Routed) (s : WidgetState) (name : String) : Option AttributeValue :=
  (r.states.get? s).bind fun m => m.get? name

/-- The last attribute of a name under a state has the value there. -/
theorem stateValue?_of_ofAttributes {source : SourceMap} {before after : List Attribute}
    {a : Attribute} {r : Routed} (h : ofAttributes source (before ++ a :: after) = .ok r)
    {s : WidgetState} {name : String} {v : AttributeValue}
    (here : Route.ofAttribute source a = .ok (.state s name v))
    (last : ∀ b ∈ after, ∀ v, Route.ofAttribute source b ≠ .ok (.state s name v)) :
    r.stateValue? s name = some v := by
  obtain ⟨front, route, back, hroute, hback, hholds⟩ := exists_of_ofAttributes h
  obtain rfl := Except.ok.inj (here.symm.trans hroute)
  have habsent : OrderedMap.get? (back.filterMap Route.state?).reverse (s, name) = none := by
    cases found : OrderedMap.get? (back.filterMap Route.state?).reverse (s, name) with
    | none => rfl
    | some v' =>
        have hmem := List.mem_reverse.mp (OrderedMap.mem_of_get?_eq_some found)
        obtain ⟨route, hmem, hstate⟩ := List.mem_filterMap.mp hmem
        cases route <;> cases hstate
        obtain ⟨b, hb, hroute⟩ := exists_mem_of_mapM hback _ hmem
        exact absurd hroute (last b hb v')
  have hsplit : (front ++ .state s name v :: back).filterMap Route.state? =
      front.filterMap Route.state? ++ ((s, name), v) :: back.filterMap Route.state? := by
    rw [List.filterMap_append, List.filterMap_cons]
    rfl
  rw [stateValue?, hholds.states.value, hsplit, List.reverse_append, List.reverse_cons,
    OrderedMap.get?_append, OrderedMap.get?_append, habsent]
  simp [OrderedMap.get?]

/-- What stands under a state was routed there. -/
theorem exists_of_mem_states {source : SourceMap} {attributes : List Attribute} {r : Routed}
    (h : ofAttributes source attributes = .ok r) {q : WidgetState × AttributeMap}
    (hq : q ∈ r.states) {p : String × AttributeValue} (hp : p ∈ q.2) :
    ∃ a ∈ attributes, Route.ofAttribute source a = .ok (.state q.1 p.1 p.2) := by
  obtain ⟨routes, hroutes, h⟩ := bind_eq_ok_iff.mp h
  obtain rfl := Except.ok.inj h
  obtain ⟨route, hmem, hstate⟩ :=
    List.mem_filterMap.mp ((holds_foldl routes).states.mem_entries hq hp)
  cases route <;> cases hstate
  exact exists_mem_of_mapM hroutes _ hmem

/-- Under a breakpoint no name comes twice. -/
theorem nodup_keys_of_ofAttributes {source : SourceMap} {attributes : List Attribute} {r : Routed}
    (h : ofAttributes source attributes = .ok r) : ∀ q ∈ r.breakpoints, q.2.keys.Nodup := by
  obtain ⟨routes, -, h⟩ := bind_eq_ok_iff.mp h
  obtain rfl := Except.ok.inj h
  exact fun _ hq => (holds_foldl routes).breakpoints.nodup_keys_of_mem hq

end Routed

/-! ### Styles of states -/

namespace AttributeMap

theorem get?_statics {m : AttributeMap} {name text : String}
    (h : m.get? name = some (.static text)) : m.statics.get? name = some text := by
  induction m with
  | nil => cases h
  | cons p m ih =>
      obtain ⟨name', v⟩ := p
      by_cases hname : name' = name
      · subst hname
        obtain rfl : v = .static text := by simpa [OrderedMap.get?] using h
        simp [statics, AttributeValue.static?, OrderedMap.get?]
      · have hrest : OrderedMap.get? m name = some (.static text) := by
          simpa [OrderedMap.get?, hname] using h
        have hskip := ih hrest
        cases v <;> simpa [statics, AttributeValue.static?, OrderedMap.get?, hname] using hskip

theorem mem_of_mem_statics {m : AttributeMap} {p : String × String} (h : p ∈ m.statics) :
    (p.1, AttributeValue.static p.2) ∈ m := by
  obtain ⟨⟨name, v⟩, hmem, hv⟩ := List.mem_filterMap.mp h
  cases v with
  | static text =>
      obtain rfl := Option.some.inj hv
      exact hmem
  | binding _ | interpolated _ => cases hv

end AttributeMap

theorem Widget.get?_readStates {span : Span} {states : List (WidgetState × AttributeMap)}
    {styles : OrderedMap WidgetState Style} (h : readStates span states = .ok styles)
    {s : WidgetState} {attributes : AttributeMap}
    (found : OrderedMap.get? states s = some attributes) {name : String}
    (hname : name ∈ Style.attributeNames) (hhas : attributes.statics.has name = true) :
    ∃ style, Style.ofAttributes attributes.statics = .ok (some style) ∧
      styles.get? s = some style := by
  induction states generalizing styles with
  | nil => cases found
  | cons q more ih =>
      obtain ⟨s', attributes'⟩ := q
      rw [readStates] at h
      obtain ⟨style?, hstyle, h⟩ := bind_eq_ok_iff.mp h
      obtain ⟨styles', hstyles', h⟩ := bind_eq_ok_iff.mp h
      obtain rfl := Except.ok.inj h
      by_cases hs : s' = s
      · subst hs
        obtain rfl : attributes' = attributes := by simpa [OrderedMap.get?] using found
        have hstyle' : Style.ofAttributes attributes'.statics = .ok style? := by
          cases hvalue : Style.ofAttributes attributes'.statics with
          | error fault => simp [hvalue, Except.mapError] at hstyle
          | ok o => simpa [hvalue, Except.mapError] using hstyle
        cases style? with
        | none => exact absurd hstyle' (Style.ofAttributes_ne_ok_none hname hhas)
        | some style => exact ⟨style, hstyle', by simp [OrderedMap.get?]⟩
      · have hrest : OrderedMap.get? more s = some attributes := by
          simpa [OrderedMap.get?, hs] using found
        obtain ⟨style, hvalue, hget⟩ := ih hstyles' hrest
        refine ⟨style, hvalue, ?_⟩
        cases style? <;> simpa [OrderedMap.get?, hs] using hget

end UiMarkup
