import UiMarkup.Proofs.Document.Reading
import UiMarkup.Proofs.Traversal

/-!
Where the widgets of a document come from. Each one, however deep, was made of an element of the
markup and passed all checks of its kind on the way; element by element the two trees have the same
shape, so each element that stands for a widget was made into one. Only a document without a widget
has one that was not written.
-/

namespace UiMarkup

theorem exists_mem_of_forall₂ {α β : Type} {R : α → β → Prop} {as : List α} {bs : List β}
    (h : List.Forall₂ R as bs) {b : β} (hb : b ∈ bs) : ∃ a ∈ as, R a b := by
  induction h with
  | nil => cases hb
  | @cons a _ _ _ hr _ ih =>
      obtain rfl | hb := List.mem_cons.mp hb
      · exact ⟨a, List.mem_cons_self, hr⟩
      · obtain ⟨a', ha', hr'⟩ := ih hb
        exact ⟨a', List.mem_cons_of_mem a ha', hr'⟩

namespace Widget

variable {α β : Type}

/-- Reading widgets can end with the value. -/
def Returns (x : Build α) (a : α) : Prop := ∃ notices notices', x.run notices = (.ok a, notices')

namespace Returns

theorem eq_of_pure {a b : α} (h : Returns (pure a) b) : a = b := by
  obtain ⟨_, _, h⟩ := h
  exact Except.ok.inj (congrArg Prod.fst h)

theorem eq_ok_of_lift {x : Except ReadFault α} {a : α} (h : Returns (liftM x : Build α) a) :
    x = .ok a := by
  obtain ⟨_, _, h⟩ := h
  exact congrArg Prod.fst h

theorem of_bind {x : Build α} {f : α → Build β} {b : β} (h : Returns (x >>= f) b) :
    ∃ a, Returns x a ∧ Returns (f a) b := by
  obtain ⟨notices, notices', h⟩ := h
  change StateT.run (x >>= f).run notices = _ at h
  rw [ExceptT.run_bind, StateT.run_bind] at h
  cases hx : x.run.run notices with
  | mk result between =>
      rw [hx] at h
      cases result with
      | error fault => cases congrArg Prod.fst h
      | ok a => exact ⟨a, ⟨notices, between, hx⟩, between, notices', h⟩

end Returns

/-- The second reader begins with the notices of the first. -/
theorem run_bind {x : Build α} {f : α → Build β} {a : α} {notices notices' : List Notice}
    (h : x.run notices = (.ok a, notices')) : (x >>= f).run notices = (f a).run notices' := by
  change StateT.run x.run notices = _ at h
  change StateT.run (x >>= f).run notices = _
  rw [ExceptT.run_bind, StateT.run_bind, h]
  rfl

/-- What the attributes of an element and the checks of its kind make of a widget. -/
structure AssembledFrom (routed : Routed) (w : Widget) : Prop where
  children : checkChildren w.kind w.children.length w.span = .ok ()
  look : readLook w.kind routed.attributes w.span = .ok (w.layout, w.style)
  states : readStates w.span routed.states = .ok w.states
  attributes : w.attributes = (Renaming.applyAll w.kind routed.attributes renamings).1
  checked : checkAttributes w.kind w.attributes w.span = .ok ()
  id : w.id = routed.id
  events : w.events = routed.events
  breakpoints : w.breakpoints = routed.breakpoints
  classes : w.classes = classNames routed.attributes
  theme : w.theme = routed.attributes.get? "theme"

theorem assembledFrom_of_assemble {kind : Kind} {routed : Routed} {children : List Widget}
    {span : Span} {w : Widget} (h : Returns (assemble kind routed children span) w) :
    w.kind = kind ∧ w.children = children ∧ w.span = span ∧ w.AssembledFrom routed := by
  obtain ⟨_, hchildren, h⟩ := h.of_bind
  obtain ⟨⟨layout, style⟩, hlook, h⟩ := h.of_bind
  obtain ⟨states, hstates, h⟩ := h.of_bind
  obtain ⟨_, _, h⟩ := h.of_bind
  obtain ⟨_, hchecked, h⟩ := h.of_bind
  obtain rfl := h.eq_of_pure
  exact ⟨rfl, rfl, rfl, hchildren.eq_ok_of_lift, hlook.eq_ok_of_lift, hstates.eq_ok_of_lift, rfl,
    hchecked.eq_ok_of_lift, rfl, rfl, rfl, rfl, rfl⟩

/-- The widget was made of the element. -/
structure MadeOf (custom : List String) (source : SourceMap) (e : Element) (w : Widget) : Prop where
  kind : kindOf custom e.tag e.span = .ok w.kind
  span : w.span = e.span
  assembled : ∃ routed, Routed.ofAttributes source e.attributes = .ok routed ∧
      w.AssembledFrom routed

theorem tag_of_kindOf {custom : List String} {tag : String} {span : Span} {kind : Kind}
    (h : kindOf custom tag span = .ok kind) : kind.tag = tag := by
  rw [kindOf] at h
  split at h
  · rename_i k hk
    obtain rfl := Except.ok.inj h
    have hfound := List.find?_some hk
    exact of_decide_eq_true hfound
  · split at h
    · obtain rfl := Except.ok.inj h
      rfl
    · cases h

theorem MadeOf.tag {custom : List String} {source : SourceMap} {e : Element} {w : Widget}
    (h : w.MadeOf custom source e) : w.kind.tag = e.tag := tag_of_kindOf h.kind

theorem madeOf_of_build {custom : List String} {source : SourceMap} {e : Element} {w : Widget}
    (h : Returns (build custom source e) w) :
    w.MadeOf custom source e ∧ Returns (buildAll custom source e.children) w.children := by
  obtain ⟨tag, attributes, children, span⟩ := e
  rw [build] at h
  obtain ⟨kind, hkind, h⟩ := h.of_bind
  obtain ⟨routed, hrouted, h⟩ := h.of_bind
  obtain ⟨widgets, hwidgets, h⟩ := h.of_bind
  obtain ⟨rfl, rfl, hspan, hassembled⟩ := assembledFrom_of_assemble h
  exact ⟨⟨hkind.eq_ok_of_lift, hspan, routed, hrouted.eq_ok_of_lift, hassembled⟩, hwidgets⟩

/-- The widget was made of the element, and has as many children. -/
def Mirrors (custom : List String) (source : SourceMap) (e : Element) (w : Widget) : Prop :=
  w.MadeOf custom source e ∧ w.children.length = e.children.length

theorem length_of_buildAll {custom : List String} {source : SourceMap} {es : List Element}
    {ws : List Widget} (h : Returns (buildAll custom source es) ws) : ws.length = es.length := by
  induction es generalizing ws with
  | nil =>
      obtain rfl := h.eq_of_pure
      rfl
  | cons e es ih =>
      obtain ⟨w, -, h⟩ := h.of_bind
      obtain ⟨ws', hws', h⟩ := h.of_bind
      obtain rfl := h.eq_of_pure
      rw [List.length_cons, List.length_cons, ih hws']

mutual

theorem mirrors_of_build {custom : List String} {source : SourceMap} :
    ∀ {e : Element} {w : Widget}, Returns (build custom source e) w →
      List.Forall₂ (Mirrors custom source) e.walk w.walk
  | ⟨tag, attributes, children, span⟩, w, h => by
      obtain ⟨hmade, hwidgets⟩ := madeOf_of_build h
      rw [Element.walk, walk_eq]
      exact .cons ⟨hmade, length_of_buildAll hwidgets⟩ (mirrors_of_buildAll hwidgets)

theorem mirrors_of_buildAll {custom : List String} {source : SourceMap} :
    ∀ {es : List Element} {ws : List Widget}, Returns (buildAll custom source es) ws →
      List.Forall₂ (Mirrors custom source) (Element.walkAll es) (walkAll ws)
  | [], ws, h => by
      obtain rfl := h.eq_of_pure
      exact .nil
  | e :: es, ws, h => by
      obtain ⟨w, hw, h⟩ := h.of_bind
      obtain ⟨ws', hws', h⟩ := h.of_bind
      obtain rfl := h.eq_of_pure
      rw [Element.walkAll, walkAll]
      exact List.rel_append (mirrors_of_build hw) (mirrors_of_buildAll hws')

end

end Widget

theorem Element.mem_walk_of_mem_children {e top root : Element} (htop : top ∈ root.children)
    (he : e ∈ top.walk) : e ∈ root.walk := by
  rw [walk_eq, walkAll_eq_flatMap]
  exact List.mem_cons_of_mem _ (List.mem_flatMap.mpr ⟨top, htop, he⟩)

namespace Document

open Widget (Returns)

variable {custom : List String} {source : SourceMap}

/-- The widget that stands for a document without one. -/
def emptyRoot (root : Element) : Widget := { kind := .builtin .column, span := root.span }

/-- A widget is only read while there is none. -/
theorem widget_of_addChild {s s' : Sections} {e : Element}
    (h : Returns (addChild custom source s e) s') :
    ¬ IsWidget e ∧ s'.widget = s.widget ∨
      IsWidget e ∧ s.widget = none ∧ ∃ w,
        s'.widget = some w ∧ Returns (Widget.build custom source e) w := by
  have notWidget {kind : SectionKind} (htag : SectionKind.ofTag? e.tag = some kind) :
      ¬ IsWidget e := by
    rw [IsWidget, htag]
    exact Option.some_ne_none kind
  rw [addChild] at h
  split at h
  · rename_i htag
    obtain ⟨_, _, h⟩ := h.of_bind
    obtain rfl := h.eq_of_pure
    exact .inl ⟨notWidget htag, rfl⟩
  · rename_i htag
    obtain ⟨_, _, h⟩ := h.of_bind
    obtain rfl := h.eq_of_pure
    exact .inl ⟨notWidget htag, rfl⟩
  · rename_i htag
    obtain rfl := h.eq_of_pure
    exact .inl ⟨notWidget htag, rfl⟩
  · rename_i htag
    obtain rfl := h.eq_of_pure
    exact .inl ⟨notWidget htag, rfl⟩
  · rename_i htag
    split at h
    · cases h.eq_ok_of_lift
    · rename_i hnone
      obtain ⟨w, hw, h⟩ := h.of_bind
      obtain rfl := h.eq_of_pure
      exact .inr ⟨htag, Option.not_isSome_iff_eq_none.mp hnone, w, rfl, hw⟩

/-- So at most one of some children is a widget. -/
theorem widget_of_addChildren {s s' : Sections} {es : List Element}
    (h : Returns (addChildren custom source s es) s') :
    es.filter IsWidget = [] ∧ s'.widget = s.widget ∨
      ∃ e, es.filter IsWidget = [e] ∧ s.widget = none ∧
        ∃ w, s'.widget = some w ∧ Returns (Widget.build custom source e) w := by
  induction es generalizing s with
  | nil =>
      obtain rfl := h.eq_of_pure
      exact .inl ⟨rfl, rfl⟩
  | cons e es ih =>
      obtain ⟨t, ht, h⟩ := h.of_bind
      obtain ⟨hother, hsame⟩ | ⟨hwidget, hnone, w, hw, hbuild⟩ := widget_of_addChild ht
      · rw [List.filter_cons_of_neg (by simpa using hother), ← hsame]
        exact ih h
      · rw [List.filter_cons_of_pos (by simpa using hwidget)]
        obtain ⟨hnil, hsame⟩ | ⟨_, -, hnone', -⟩ := ih h
        · exact .inr ⟨e, by rw [hnil], hnone, w, hsame.trans hw, hbuild⟩
        · rw [hw] at hnone'
          cases hnone'

theorem notAfter_of_declaredVersion {root : Element} {v : Version}
    (h : declaredVersion root = .ok v) : v.notAfter .newest = true := by
  rw [declaredVersion] at h
  split at h
  · cases h
    rfl
  · rename_i a _
    cases hv : Version.parse a.value a.span with
    | error fault => cases hv ▸ h
    | ok v' =>
        rw [hv] at h
        change (v'.checkSupported a.span >>= fun _ => pure v') = .ok v at h
        rw [Version.checkSupported] at h
        split at h
        · cases h
        · rename_i hnew
          cases h
          simpa [Version.newerThan] using hnew

theorem gaps_of_checkVersions {v : Version} {w : Widget} (h : checkVersions v w = .ok ()) :
    gaps v w = [] := by
  rw [checkVersions] at h
  split at h
  · cases h
  · rename_i hnone
    exact List.head?_eq_none_iff.mp hnone

/-- The document declares a version that is supported and has all its widgets. -/
structure WithinVersion (d : Document) : Prop where
  supported : d.version.notAfter .newest = true
  gaps : d.versionGaps = []

theorem withinVersion_of_ofSections {root : Element} {d : Document}
    (h : Returns (ofSections custom source root) d) :
    d.WithinVersion ∧ (root.children.filter IsWidget = [] ∧ d.root = emptyRoot root ∨
      ∃ e, root.children.filter IsWidget = [e] ∧
        Returns (Widget.build custom source e) d.root) := by
  obtain ⟨version, hversion, h⟩ := h.of_bind
  obtain ⟨s, hs, h⟩ := h.of_bind
  obtain ⟨w, hw, h⟩ := h.of_bind
  obtain ⟨_, hcheck, h⟩ := h.of_bind
  obtain rfl := h.eq_of_pure
  refine ⟨⟨notAfter_of_declaredVersion hversion.eq_ok_of_lift,
    gaps_of_checkVersions hcheck.eq_ok_of_lift⟩, ?_⟩
  replace hw := hw.eq_ok_of_lift
  rw [widgetOf] at hw
  obtain ⟨hnil, hnone⟩ | ⟨e, he, -, w', hw', hbuild⟩ := widget_of_addChildren hs
  · rw [hnone] at hw
    dsimp only at hw
    split at hw
    · cases hw
    · cases hw
      exact .inl ⟨hnil, rfl⟩
  · rw [hw'] at hw
    cases hw
    exact .inr ⟨e, he, hbuild⟩

/-- The walk of a document is that of its elements that stand for widgets, one by one. Where there
is none, an empty widget stands for the missing one. -/
theorem mirrors_of_ofMarkup {m : Markup} {d : Document} (h : Returns (ofMarkup custom m) d) :
    List.Forall₂ (Widget.Mirrors custom m.source) (widgetElements m.root) d.walk ∨
      widgetElements m.root = [] ∧ d.root = emptyRoot m.root := by
  rw [ofMarkup] at h
  split at h
  · rename_i htag
    rw [widgetElements, if_pos htag]
    obtain ⟨-, ⟨hnil, hempty⟩ | ⟨e, he, hbuild⟩⟩ := withinVersion_of_ofSections h
    · exact .inr ⟨by rw [hnil, List.flatMap_nil], hempty⟩
    · rw [he, List.flatMap_singleton]
      exact .inl (Widget.mirrors_of_build hbuild)
  · rename_i htag
    obtain ⟨r, hr, h⟩ := h.of_bind
    obtain rfl := h.eq_of_pure
    rw [widgetElements, if_neg htag]
    exact .inl (Widget.mirrors_of_build hr)

/-- Each widget of a document was made of an element of the markup, or is the empty one that stands
for the missing widget. -/
theorem exists_madeOf_of_ofMarkup {m : Markup} {d : Document} (h : Returns (ofMarkup custom m) d) :
    ∀ w ∈ d.walk, (∃ e ∈ widgetElements m.root, w.MadeOf custom m.source e) ∨
      w = emptyRoot m.root := by
  intro w hw
  obtain hmirrors | ⟨-, hempty⟩ := mirrors_of_ofMarkup h
  · obtain ⟨e, he, hmade, -⟩ := exists_mem_of_forall₂ hmirrors hw
    exact .inl ⟨e, he, hmade⟩
  · rw [walk, hempty] at hw
    exact .inr (by simpa [emptyRoot, Widget.walk, Widget.walkAll] using hw)

theorem withinVersion_of_ofMarkup {m : Markup} {d : Document} (h : Returns (ofMarkup custom m) d)
    (htag : m.root.tag = documentTag) : d.WithinVersion := by
  rw [ofMarkup, if_pos htag] at h
  exact (withinVersion_of_ofSections h).1

theorem exists_markup_of_read {bytes : List UInt8} {d : Document} {notices : List Notice}
    (h : read custom bytes = (.ok d, notices)) :
    ∃ m, Markup.read bytes = .ok m ∧ Returns (ofMarkup custom m) d := by
  rw [read] at h
  cases hm : Markup.read bytes with
  | error fault =>
      rw [hm] at h
      cases congrArg Prod.fst h
  | ok m =>
      rw [hm] at h
      exact ⟨m, rfl, [], notices, h⟩

/-! ### Where the elements go -/

theorem exists_mem_walk_of_ofMarkup {custom : List String} {m : Markup} {d : Document}
    (h : Returns (ofMarkup custom m) d) :
    ∀ e ∈ widgetElements m.root, ∃ w ∈ d.walk, w.MadeOf custom m.source e := by
  intro e he
  obtain hmirrors | ⟨hnil, -⟩ := mirrors_of_ofMarkup h
  · obtain ⟨w, hw, hmade, -⟩ := exists_mem_of_forall₂ hmirrors.flip he
    exact ⟨w, hw, hmade⟩
  · rw [hnil] at he
    cases he

theorem mem_walk_of_mem_widgetElements {e root : Element} (h : e ∈ widgetElements root) :
    e ∈ root.walk := by
  rw [widgetElements] at h
  split at h
  · obtain ⟨top, htop, he⟩ := List.mem_flatMap.mp h
    exact Element.mem_walk_of_mem_children (List.mem_filter.mp htop).1 he
  · exact h

end Document

/-! ### Both trees listed with a stack -/

namespace Widget

/-- Listing with a stack walks a tree of elements, and one of widgets, each tree before its children
and these in order; the widgets of an element that could be read have, one by one, the tags and the
spans of the elements, and as many children. -/
theorem visit_mirrors :
    (∀ e : Element, Element.branching.visit e = e.walk) ∧
      (∀ w : Widget, branching.visit w = w.walk) ∧
      ∀ custom source e w notices notices',
        (build custom source e).run notices = (.ok w, notices') →
        List.Forall₂ (fun d v => v.kind.tag = d.tag ∧ v.span = d.span ∧
          v.children.length = d.children.length)
          (Element.branching.visit e) (branching.visit w) := by
  refine ⟨Element.branching.visit_eq_walk, branching.visit_eq_walk, ?_⟩
  intro custom source e w notices notices' h
  have hmirrors : List.Forall₂ (Mirrors custom source) e.walk w.walk :=
    mirrors_of_build ⟨notices, notices', h⟩
  rw [Element.branching.visit_eq_walk, branching.visit_eq_walk]
  exact hmirrors.imp fun d v ⟨hmade, hlength⟩ => ⟨hmade.tag, hmade.span, hlength⟩

/-- A column with a row of two widgets in front of a widget of the application. -/
theorem visit_mirrors_column : ∃ e w notices', (build ["badge"] ⟨[]⟩ e).run [] = (.ok w, notices') ∧
    (Element.branching.visit e).map Element.tag = ["column", "row", "space", "rule", "badge"] ∧
      List.Forall₂ (fun d v => v.kind.tag = d.tag ∧ v.span = d.span ∧
        v.children.length = d.children.length)
        (Element.branching.visit e) (branching.visit w) := by
  let leaf (tag : String) : Element := ⟨tag, [], [], .origin⟩
  let e : Element :=
    ⟨"column", [], [⟨"row", [], [leaf "space", leaf "rule"], .origin⟩, leaf "badge"], .origin⟩
  have hrun : ∃ w notices', (build ["badge"] ⟨[]⟩ e).run [] = (.ok w, notices') := ⟨_, _, rfl⟩
  obtain ⟨w, notices', hrun⟩ := hrun
  obtain ⟨hvisit, -, hmirrors⟩ := visit_mirrors
  exact ⟨e, w, notices', hrun, by rw [hvisit]; rfl, hmirrors _ _ e w _ _ hrun⟩

end Widget
end UiMarkup
