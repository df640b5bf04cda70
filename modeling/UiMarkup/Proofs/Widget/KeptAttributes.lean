import UiMarkup.Proofs.Widget.Renaming
import UiMarkup.Proofs.Widget.Routing

/-!
What a widget keeps of the attributes of its element. Each attribute goes to a place: the
identifier, the events, or a name under a breakpoint, under a state or among the plain attributes. A
place has one value, so of attributes that go to the same one only one is left, and no error says
that there were others. Events are all kept.
-/

namespace UiMarkup

/-! ### Where attributes go -/

namespace Route

theorem length_eq_sum (routes : List Route) : routes.length =
    (routes.filterMap id?).length + (routes.filterMap event?).length +
      (routes.filterMap breakpoint?).length + (routes.filterMap state?).length +
        (routes.filterMap plain?).length := by
  induction routes with
  | nil => rfl
  | cons route routes ih =>
      cases route <;>
        simp only [id?, event?, breakpoint?, state?, plain?, List.filterMap_cons,
          List.length_cons, ih]
        <;> omega

end Route

/-- A place that has one value at most. Every event has a place of its own. -/
inductive Place
  | id
  | event (event : EventBinding)
  | breakpoint (breakpoint : Breakpoint) (name : String)
  | state (state : WidgetState) (name : String)
  | plain (name : String)

/-- Where an attribute ends up in a widget of some kind. -/
def Route.place (kind : Kind) : Route → Place
  | .id _ => .id
  | .event e => .event e
  | .breakpoint b name _ => .breakpoint b name
  | .state s name _ => .state s name
  | .plain name _ => .plain (Renaming.nameIn kind name)

/-! ### Names of attributes -/

namespace Route

variable {source : SourceMap} {a : Attribute}

theorem name_of_ofAttribute_id {value : String} (h : ofAttribute source a = .ok (.id value)) :
    a.name = "id" := by
  by_contra named
  obtain ⟨s, name, v, heq, -⟩ | ⟨v, heq⟩ :=
    ofAttribute_eq_ok h named (by rintro _ ⟨⟩) (by rintro _ _ _ ⟨⟩)
  · cases heq
  · cases heq

theorem name_of_ofAttribute_plain {name : String} {v : AttributeValue}
    (h : ofAttribute source a = .ok (.plain name v)) : name = a.name := by
  have named : a.name ≠ "id" := by
    intro named
    rw [ofAttribute, if_pos named] at h
    cases h
  obtain ⟨s, name', v', heq, -⟩ | ⟨v', heq⟩ :=
    ofAttribute_eq_ok h named (by rintro _ ⟨⟩) (by rintro _ _ _ ⟨⟩)
  · cases heq
  · cases heq
    rfl

/-- Parts that are called as their attributes come no more often than these. -/
theorem keys_sublist_of_mapM {β : Type} {part : Route → Option (String × β)}
    (named : ∀ a route q, ofAttribute source a = .ok route → part route = some q → q.1 = a.name)
    {attributes : List Attribute} {routes : List Route}
    (h : attributes.mapM (ofAttribute source) = .ok routes) :
    (OrderedMap.keys (routes.filterMap part)).Sublist (attributes.map Attribute.name) := by
  induction attributes generalizing routes with
  | nil =>
      obtain rfl := Except.ok.inj h
      exact .slnil
  | cons a attributes ih =>
      rw [List.mapM_cons] at h
      obtain ⟨route, hroute, h⟩ := bind_eq_ok_iff.mp h
      obtain ⟨routes, hroutes, h⟩ := bind_eq_ok_iff.mp h
      obtain rfl := Except.ok.inj h
      rw [List.filterMap_cons]
      cases hpart : part route with
      | none => exact (ih hroutes).cons a.name
      | some q =>
          change (q.1 :: OrderedMap.keys (routes.filterMap part)).Sublist
              (a.name :: attributes.map Attribute.name)
          exact named a route q hroute hpart ▸ (ih hroutes).cons_cons q.1

theorem nodup_keys_plain {attributes : List Attribute} {routes : List Route}
    (h : attributes.mapM (ofAttribute source) = .ok routes)
    (distinct : (attributes.map Attribute.name).Nodup) :
    (OrderedMap.keys (routes.filterMap plain?)).Nodup := by
  refine (keys_sublist_of_mapM (fun a route q hroute hq => ?_) h).nodup distinct
  cases route <;> cases hq
  exact name_of_ofAttribute_plain hroute

/-- There is one identifier at most. -/
theorem length_id_le {attributes : List Attribute} {routes : List Route}
    (h : attributes.mapM (ofAttribute source) = .ok routes)
    (distinct : (attributes.map Attribute.name).Nodup) : (routes.filterMap id?).length ≤ 1 := by
  let part (route : Route) : Option (String × String) := route.id?.map fun value => ("id", value)
  have hkeys : OrderedMap.keys (routes.filterMap part) =
      List.replicate (routes.filterMap id?).length "id" := by
    simp [OrderedMap.keys, part, ← List.map_filterMap, List.map_map, Function.comp_def]
  rw [← List.nodup_replicate, ← hkeys]
  refine (keys_sublist_of_mapM (fun a route q hroute hq => ?_) h).nodup distinct
  cases route <;> cases hq
  exact (name_of_ofAttribute_id hroute).symm

end Route

namespace Widget

/-- Of some attributes, a widget has all events and one value of each other place. Under
breakpoints and states it is the last one. A plain attribute has the value of the first of its
sources that is given. -/
structure KeepsLast (w : Widget) (stated : OrderedMap WidgetState AttributeMap)
    (routes : List Route) : Prop where
  id : w.id = (routes.filterMap Route.id?).getLast?
  events : w.events = routes.filterMap Route.event?
  breakpoints : w.breakpoints.NestedLast (routes.filterMap Route.breakpoint?)
  states : stated.NestedLast (routes.filterMap Route.state?)
  styles : readStates w.span stated = .ok w.states
  distinct : w.attributes.keys.Nodup
  attributes : ∀ name, w.attributes.get? name =
    (Renaming.sources (Renaming.ofKind w.kind renamings) name).findSome?
      (OrderedMap.get? (routes.filterMap Route.plain?))

/-- The value of an attribute is in its place. Those under states are what the styles of
the states are made of. -/
def Holds (w : Widget) (stated : OrderedMap WidgetState AttributeMap) : Route → Prop
  | .id value => w.id = some value
  | .event e => e ∈ w.events
  | .breakpoint b name value => ((w.breakpoints.get? b).bind fun m => m.get? name) = some value
  | .state s name value => ((stated.get? s).bind fun m => m.get? name) = some value
  | .plain name value => w.attributes.get? (Renaming.nameIn w.kind name) = some value

/-- How many values a widget has, apart from the styles of states. -/
def valueCount (w : Widget) : Nat :=
  w.id.toList.length + w.events.length + (List.map (fun q => q.2.length) w.breakpoints).sum +
    w.attributes.length

variable {custom : List String} {source : SourceMap} {e : Element} {w : Widget}
  {routes : List Route} {stated : OrderedMap WidgetState AttributeMap}

theorem KeepsLast.exists_holds (h : w.KeepsLast stated routes) {route : Route}
    (hroute : route ∈ routes) :
    ∃ kept ∈ routes, kept.place w.kind = route.place w.kind ∧ w.Holds stated kept := by
  cases route with
  | id value =>
      have hmem : value ∈ routes.filterMap Route.id? := List.mem_filterMap.mpr ⟨_, hroute, rfl⟩
      have hkept := List.getLast?_eq_some_getLast (List.ne_nil_of_mem hmem)
      obtain ⟨route, hroute', hid⟩ := List.mem_filterMap.mp (List.mem_of_getLast? hkept)
      cases route <;> cases hid
      exact ⟨_, hroute', rfl, h.id.trans hkept⟩
  | event e =>
      refine ⟨_, hroute, rfl, ?_⟩
      rw [Holds, h.events]
      exact List.mem_filterMap.mpr ⟨_, hroute, rfl⟩
  | breakpoint b name value =>
      obtain ⟨kept, hkept, hmem⟩ :=
        h.breakpoints.exists_get? (List.mem_filterMap.mpr ⟨_, hroute, rfl⟩)
      obtain ⟨route, hroute', hentry⟩ := List.mem_filterMap.mp hmem
      cases route <;> cases hentry
      exact ⟨_, hroute', rfl, hkept⟩
  | state s name value =>
      obtain ⟨kept, hkept, hmem⟩ := h.states.exists_get? (List.mem_filterMap.mpr ⟨_, hroute, rfl⟩)
      obtain ⟨route, hroute', hentry⟩ := List.mem_filterMap.mp hmem
      cases route <;> cases hentry
      exact ⟨_, hroute', rfl, hkept⟩
  | plain name value =>
      let source? := OrderedMap.get? (routes.filterMap Route.plain?)
      have hgiven : (source? name).isSome := (OrderedMap.has_iff_mem_keys _ name).mpr
        (List.mem_map_of_mem (List.mem_filterMap.mpr ⟨_, hroute, rfl⟩ : (name, value) ∈ _))
      have hfound : ((Renaming.sources (Renaming.ofKind w.kind renamings)
          (Renaming.nameIn w.kind name)).findSome? source?).isSome :=
        List.findSome?_isSome_iff.mpr ⟨name, Renaming.mem_sources_iff.mpr rfl, hgiven⟩
      obtain ⟨kept, hkept⟩ := Option.isSome_iff_exists.mp hfound
      obtain ⟨name', hname', hvalue⟩ := List.exists_of_findSome?_eq_some hkept
      obtain ⟨route, hroute', hentry⟩ :=
        List.mem_filterMap.mp (OrderedMap.mem_of_get?_eq_some hvalue)
      cases route <;> cases hentry
      have hsame : Renaming.nameIn w.kind name' = Renaming.nameIn w.kind name :=
        Renaming.mem_sources_iff.mp hname'
      refine ⟨_, hroute', congrArg Place.plain hsame, ?_⟩
      rw [Holds, hsame, h.attributes]
      exact hkept

theorem keepsLast_of_assembledFrom {routes : List Route}
    (h : w.AssembledFrom (routes.foldl Routed.add {}))
    (distinct : (OrderedMap.keys (routes.filterMap Route.plain?)).Nodup) :
    w.KeepsLast (routes.foldl Routed.add {}).states routes := by
  have hholds := Routed.holds_foldl routes
  refine ⟨h.id.trans hholds.id, h.events.trans hholds.events, h.breakpoints ▸ hholds.breakpoints,
    hholds.states, h.states, ?_, fun name => ?_⟩
  · rw [h.attributes, Renaming.fst_applyAll]
    exact Renaming.nodup_keys_foldl_apply hholds.attributes.distinct _
  · have hplain : OrderedMap.get? (routes.foldl Routed.add {}).attributes =
        OrderedMap.get? (routes.filterMap Route.plain?) := by
      funext name
      rw [hholds.attributes.value, OrderedMap.get?_reverse distinct]
    rw [h.attributes, Renaming.get?_applyAll, hplain]

/-- Only an attribute that gets the name of another one makes them fewer. -/
theorem KeepsLast.length_attributes (h : w.KeepsLast stated routes) :
    w.attributes.length ≤ (routes.filterMap Route.plain?).length ∧
      (w.attributes.length = (routes.filterMap Route.plain?).length ↔
        ((OrderedMap.keys (routes.filterMap Route.plain?)).map
          (Renaming.nameIn w.kind)).Nodup) := by
  have hmem (name : String) : name ∈ w.attributes.keys ↔
      name ∈ (OrderedMap.keys (routes.filterMap Route.plain?)).map (Renaming.nameIn w.kind) :=
    Renaming.mem_keys_iff_of_sources h.attributes
  have hle := (List.subperm_of_subset h.distinct fun name => (hmem name).mp).length_le
  have hiff := OrderedMap.length_eq_iff_nodup h.distinct hmem
  simp only [OrderedMap.keys, List.length_map] at hle hiff ⊢
  exact ⟨hle, hiff⟩

theorem toList_getLast?_of_length_le {α : Type} {l : List α} (h : l.length ≤ 1) :
    l.getLast?.toList = l := by
  match l, h with
  | [], _ => rfl
  | [_], _ => rfl

/-- Where several attributes go to one place, one of them is found there. The values are as many
as the attributes exactly when no two of these have one name under a breakpoint or get one name
among the plain ones. -/
theorem keepsLast_of_build (h : Returns (build custom source e) w)
    (distinct : (e.attributes.map Attribute.name).Nodup) :
    ∃ routes stated, e.attributes.mapM (Route.ofAttribute source) = .ok routes ∧
      w.KeepsLast stated routes ∧
      (∀ route ∈ routes, ∃ kept ∈ routes, kept.place w.kind = route.place w.kind ∧
        w.Holds stated kept) ∧
      (e.attributes.length = w.valueCount + (routes.filterMap Route.state?).length ↔
        (OrderedMap.keys (routes.filterMap Route.breakpoint?)).Nodup ∧
          ((OrderedMap.keys (routes.filterMap Route.plain?)).map
            (Renaming.nameIn w.kind)).Nodup) := by
  obtain ⟨routed, hrouted, hassembled⟩ := (madeOf_of_build h).1.assembled
  obtain ⟨routes, hroutes, heq⟩ := bind_eq_ok_iff.mp hrouted
  obtain rfl := Except.ok.inj heq
  have hkeeps := keepsLast_of_assembledFrom hassembled (Route.nodup_keys_plain hroutes distinct)
  refine ⟨routes, _, hroutes, hkeeps, fun route hroute => hkeeps.exists_holds hroute, ?_⟩
  have hid : w.id.toList = routes.filterMap Route.id? := by
    rw [hkeeps.id, toList_getLast?_of_length_le (Route.length_id_le hroutes distinct)]
  have hlength := (length_of_mapM hroutes).symm.trans (Route.length_eq_sum routes)
  -- neither map has more values than attributes went there, so the sums agree
  -- only if both have as many
  obtain ⟨hle, hiff⟩ := hkeeps.length_attributes
  have hle' := hkeeps.breakpoints.flat.length_le
  rw [← hiff, ← hkeeps.breakpoints.flat.length_eq_iff, valueCount, ← OrderedMap.length_flat, hid,
    hkeeps.events, hlength]
  omega

/-! ### An image with two sources -/

/-- `<image id="i" on_click="go" mobile-direction="row"
hover:border_style="dashed" path="a" src="b"/>`. -/
def twoSources : Element where
  tag := "image"
  attributes :=
    [⟨"id", "i", .origin⟩, ⟨"on_click", "go", .origin⟩, ⟨"mobile-direction", "row", .origin⟩,
    ⟨"hover:border_style", "dashed", .origin⟩, ⟨"path", "a", .origin⟩, ⟨"src", "b", .origin⟩]
  children := []
  span := .origin

def twoSourcesWidget : Widget where
  kind := .builtin .image
  id := some "i"
  attributes := [("src", .static "a")]
  events := [⟨.click, "go", none, .origin⟩]
  breakpoints := [(.mobile, [("direction", .static "row")])]
  states := [(.hover, { border := some { style := .dashed } })]
  span := .origin

def twoSourcesRoutes : List Route := [.id "i", .event ⟨.click, "go", none, .origin⟩,
  .breakpoint .mobile "direction" (.static "row"), .state .hover "border_style" (.static "dashed"),
  .plain "path" (.static "a"), .plain "src" (.static "b")]

theorem mapM_twoSources :
    twoSources.attributes.mapM (Route.ofAttribute ⟨[]⟩) = .ok twoSourcesRoutes := by
  have hid : Route.ofAttribute ⟨[]⟩ ⟨"id", "i", .origin⟩ = .ok (.id "i") := rfl
  have hevent : Route.ofAttribute ⟨[]⟩ ⟨"on_click", "go", .origin⟩ =
      .ok (.event ⟨.click, "go", none, .origin⟩) := by
    cbv
  simp only [twoSources, List.mapM_cons, List.mapM_nil, hid, hevent,
    Route.ofAttribute_eq (show "mobile-direction" ≠ "id" by decide) rfl
      (show '\x7b' ∉ "row".toList by decide),
    Route.ofAttribute_eq (show "hover:border_style" ≠ "id" by decide) rfl
      (show '\x7b' ∉ "dashed".toList by decide),
    Route.ofAttribute_eq (show "path" ≠ "id" by decide) rfl (show '\x7b' ∉ "a".toList by decide),
    Route.ofAttribute_eq (show "src" ≠ "id" by decide) rfl (show '\x7b' ∉ "b".toList by decide)]
  rfl

theorem build_twoSources : (build [] ⟨[]⟩ twoSources).run [] =
    (.ok twoSourcesWidget, [⟨.builtin .image, "path", "src"⟩]) := by
  have hrouted : Routed.ofAttributes ⟨[]⟩ twoSources.attributes =
      .ok (twoSourcesRoutes.foldl Routed.add {}) := by
    rw [Routed.ofAttributes, mapM_twoSources]
    rfl
  refine (run_bind (a := Kind.builtin .image) rfl).trans ?_
  refine (run_bind (congrArg (·, []) hrouted)).trans ?_
  refine (run_bind (a := []) rfl).trans ?_
  refine (run_bind rfl).trans ?_
  refine (run_bind (a := ((none, none) : Option Layout × Option Style)) rfl).trans ?_
  refine (run_bind (a := twoSourcesWidget.states) rfl).trans ?_
  refine (run_bind rfl).trans ?_
  refine (run_bind rfl).trans ?_
  rfl

/-- All but the second source are kept. -/
theorem keepsLast_of_build_twoSources : (twoSources.attributes.map Attribute.name).Nodup ∧
    Returns (build [] ⟨[]⟩ twoSources) twoSourcesWidget ∧
    (∃ stated, twoSourcesWidget.KeepsLast stated twoSourcesRoutes ∧
      ∀ route ∈ twoSourcesRoutes, ∃ kept ∈ twoSourcesRoutes,
        kept.place (.builtin .image) = route.place (.builtin .image) ∧
        twoSourcesWidget.Holds stated kept) ∧
    twoSources.attributes.length ≠ twoSourcesWidget.valueCount +
      (twoSourcesRoutes.filterMap Route.state?).length := by
  have hbuild : Returns (build [] ⟨[]⟩ twoSources) twoSourcesWidget := ⟨_, _, build_twoSources⟩
  have distinct : (twoSources.attributes.map Attribute.name).Nodup := by decide
  obtain ⟨routes, stated, hroutes, hkeeps, hplaces, hcount⟩ := keepsLast_of_build hbuild distinct
  obtain rfl := Except.ok.inj (mapM_twoSources.symm.trans hroutes)
  refine ⟨distinct, hbuild, ⟨stated, hkeeps, hplaces⟩, fun hall => ?_⟩
  exact absurd (hcount.mp hall).2 (by decide)

end Widget
end UiMarkup
