import UiMarkup.Proofs.Document.Provenance

/-!
The children of a document's element. A child changes only what its kind is for, so all that the
children hold is told by those of each kind taken apart, and the kinds may be mixed in any order.
-/

namespace UiMarkup

namespace Widget

variable {α β : Type} {notices notices' : List Notice}

theorem run_pure_eq_ok_iff {a b : α} :
    (pure a : Build α).run notices = (.ok b, notices') ↔ a = b ∧ notices = notices' := by
  change (Except.ok a, notices) = (Except.ok b, notices') ↔ _
  simp

theorem run_lift_eq_ok_iff {x : Except ReadFault α} {a : α} :
    (liftM x : Build α).run notices = (.ok a, notices') ↔ x = .ok a ∧ notices = notices' := by
  change (x, notices) = (Except.ok a, notices') ↔ _
  simp

/-- Reading in steps ends well when each step does, and the notices go from one to the next. -/
theorem run_bind_eq_ok_iff {x : Build α} {f : α → Build β} {b : β} :
    (x >>= f).run notices = (.ok b, notices') ↔
      ∃ a between, x.run notices = (.ok a, between) ∧ (f a).run between = (.ok b, notices') := by
  constructor
  · intro h
    change StateT.run (x >>= f).run notices = _ at h
    rw [ExceptT.run_bind, StateT.run_bind] at h
    cases hx : x.run.run notices with
    | mk result between =>
        rw [hx] at h
        cases result with
        | error fault => cases congrArg Prod.fst h
        | ok a => exact ⟨a, between, hx, h⟩
  · rintro ⟨a, between, hx, h⟩
    rw [run_bind hx, h]

end Widget

namespace Document

open Widget (Build run_pure_eq_ok_iff run_lift_eq_ok_iff run_bind_eq_ok_iff)

variable {custom : List String} {source : SourceMap} {s s' : Sections}
    {notices notices' : List Notice}

attribute [ext] Sections

/-! ### What each kind is for -/

/-- The elements of one kind, in their order. Those of no kind of section are widgets. -/
def ofKind (kind : Option SectionKind) (es : List Element) : List Element :=
  es.filter fun e => SectionKind.ofTag? e.tag = kind

theorem ofKind_append (kind : Option SectionKind) (es es' : List Element) :
    ofKind kind (es ++ es') = ofKind kind es ++ ofKind kind es' :=
  List.filter_append es es'

theorem ofKind_singleton (kind : Option SectionKind) (e : Element) :
    ofKind kind [e] = if SectionKind.ofTag? e.tag = kind then [e] else [] := by
  by_cases h : SectionKind.ofTag? e.tag = kind <;> simp [ofKind, h]

def putThemes (m : ThemeMap) (e : Element) : Except ReadFault ThemeMap := do
  return m.putAll (← readThemes e)

def putClasses (m : ClassMap) (e : Element) : Except ReadFault ClassMap := do
  return m.putAll (← ClassMap.ofSection e)

/-- A section without a name chooses nothing. -/
def chooseStart (start : Option String) (e : Element) : Option String := (e.get? "name").or start

def setFollowing (_ : Bool) (e : Element) : Bool := e.followsSystem

def takeWidget (custom : List String) (source : SourceMap) (w : Option Widget) (e : Element) :
    Build (Option Widget) :=
  if w.isSome then Widget.refuse .severalRoots e.span
  else do return some (← Widget.build custom source e)

/-- Some children lead from one state of the sections to another: in each state, what a kind is for
is told by the children of that kind. -/
@[mk_iff]
structure Gathered (custom : List String) (source : SourceMap) (es : List Element) (s s' : Sections)
    (notices notices' : List Notice) : Prop where
  themes : (ofKind (some .themes) es).foldlM putThemes s.themes = .ok s'.themes
  classes : (ofKind (some .classes) es).foldlM putClasses s.classes = .ok s'.classes
  startTheme : (ofKind (some .startTheme) es).foldl chooseStart s.startTheme = s'.startTheme
  followSystem : (ofKind (some .followSystem) es).foldl setFollowing s.followSystem =
      s'.followSystem
  widget : ((ofKind none es).foldlM (takeWidget custom source) s.widget).run notices =
    (.ok s'.widget, notices')

theorem gathered_nil_iff : Gathered custom source [] s s' notices notices' ↔
    s = s' ∧ notices = notices' := by
  constructor
  · rintro ⟨hthemes, hclasses, hstart, hfollow, hwidget⟩
    obtain ⟨hsame, rfl⟩ := run_pure_eq_ok_iff.mp hwidget
    refine ⟨?_, rfl⟩
    obtain ⟨themes, classes, start, follow, widget⟩ := s
    obtain rfl := Except.ok.inj hthemes
    obtain rfl := Except.ok.inj hclasses
    obtain rfl := hstart
    obtain rfl := hfollow
    obtain rfl := hsame
    rfl
  · rintro ⟨rfl, rfl⟩
    exact ⟨rfl, rfl, rfl, rfl, rfl⟩

/-- Children one after another lead through a state between. -/
theorem gathered_append_iff {es es' : List Element} :
    Gathered custom source (es ++ es') s s' notices notices' ↔
    ∃ t between, Gathered custom source es s t notices between ∧
      Gathered custom source es' t s' between notices' := by
  constructor
  · rintro ⟨hthemes, hclasses, hstart, hfollow, hwidget⟩
    rw [ofKind_append, List.foldlM_append] at hthemes hclasses hwidget
    rw [ofKind_append, List.foldl_append] at hstart hfollow
    obtain ⟨themes, hthemes, hthemes'⟩ := bind_eq_ok_iff.mp hthemes
    obtain ⟨classes, hclasses, hclasses'⟩ := bind_eq_ok_iff.mp hclasses
    obtain ⟨widget, between, hwidget, hwidget'⟩ := run_bind_eq_ok_iff.mp hwidget
    exact ⟨⟨themes, classes, _, _, widget⟩, between, ⟨hthemes, hclasses, rfl, rfl, hwidget⟩,
      ⟨hthemes', hclasses', hstart, hfollow, hwidget'⟩⟩
  · rintro ⟨t, between, h, h'⟩
    constructor
    · rw [ofKind_append, List.foldlM_append]
      exact bind_eq_ok_iff.mpr ⟨_, h.themes, h'.themes⟩
    · rw [ofKind_append, List.foldlM_append]
      exact bind_eq_ok_iff.mpr ⟨_, h.classes, h'.classes⟩
    · rw [ofKind_append, List.foldl_append, h.startTheme, h'.startTheme]
    · rw [ofKind_append, List.foldl_append, h.followSystem, h'.followSystem]
    · rw [ofKind_append, List.foldlM_append]
      exact run_bind_eq_ok_iff.mpr ⟨_, _, h.widget, h'.widget⟩

/-- One child changes what its kind is for, and nothing else. -/
theorem addChild_eq_ok_iff {e : Element} :
    (addChild custom source s e).run notices = (.ok s', notices') ↔
    Gathered custom source [e] s s' notices notices' := by
  rw [gathered_iff, addChild]
  simp only [ofKind_singleton]
  cases hkind : SectionKind.ofTag? e.tag with
  | none =>
      simp only [reduceCtorEq, if_false, if_true, List.foldlM_cons, List.foldlM_nil, List.foldl_nil,
        bind_pure, pure_eq_ok_iff, takeWidget]
      split
      · simp only [run_lift_eq_ok_iff, Widget.refuse, reduceCtorEq, false_and, and_false]
      · simp only [run_bind_eq_ok_iff, run_pure_eq_ok_iff, Sections.ext_iff]
        tauto
  | some kind =>
      cases kind <;>
        simp only [reduceCtorEq, Option.some.injEq, if_false, if_true, List.foldlM_cons,
          List.foldlM_nil, List.foldl_cons, List.foldl_nil, bind_pure, run_bind_eq_ok_iff,
          run_lift_eq_ok_iff, run_pure_eq_ok_iff, pure_eq_ok_iff, bind_eq_ok_iff, putThemes,
          putClasses, chooseStart, setFollowing, Sections.ext_iff]
      case startTheme | followSystem => simp only [and_assoc]
      case themes =>
        constructor
        · rintro ⟨m, _, ⟨hm, rfl⟩, ⟨hput, hclasses, hstart, hfollow, hwidget⟩, rfl⟩
          exact ⟨⟨m, hm, hput⟩, hclasses, hstart, hfollow, hwidget, rfl⟩
        · rintro ⟨⟨m, hm, hput⟩, hclasses, hstart, hfollow, hwidget, rfl⟩
          exact ⟨m, _, ⟨hm, rfl⟩, ⟨hput, hclasses, hstart, hfollow, hwidget⟩, rfl⟩
      case classes =>
        constructor
        · rintro ⟨m, _, ⟨hm, rfl⟩, ⟨hthemes, hput, hstart, hfollow, hwidget⟩, rfl⟩
          exact ⟨hthemes, ⟨m, hm, hput⟩, hstart, hfollow, hwidget, rfl⟩
        · rintro ⟨hthemes, ⟨m, hm, hput⟩, hstart, hfollow, hwidget, rfl⟩
          exact ⟨m, _, ⟨hm, rfl⟩, ⟨hthemes, hput, hstart, hfollow, hwidget⟩, rfl⟩

theorem addChildren_eq_ok_iff {es : List Element} :
    (addChildren custom source s es).run notices = (.ok s', notices') ↔
      Gathered custom source es s s' notices notices' := by
  induction es generalizing s notices with
  | nil => rw [addChildren, run_pure_eq_ok_iff, gathered_nil_iff]
  | cons e es ih =>
      rw [addChildren, run_bind_eq_ok_iff, ← List.singleton_append, gathered_append_iff]
      simp only [addChild_eq_ok_iff, ih]

/-! ### The order of the children -/

theorem ofSections_eq_ok_iff {root : Element} {d : Document} :
    (ofSections custom source root).run notices = (.ok d, notices') ↔
      ∃ s, Gathered custom source root.children {} s notices notices' ∧
        declaredVersion root = .ok d.version ∧
        widgetOf s root = .ok d.root ∧ checkVersions d.version d.root = .ok () ∧
        d.themes = s.themes ∧ d.classes = s.classes ∧ d.startTheme = s.startTheme ∧
        d.followSystem = s.followSystem := by
  simp only [ofSections, run_bind_eq_ok_iff, run_lift_eq_ok_iff, run_pure_eq_ok_iff,
    addChildren_eq_ok_iff]
  constructor
  · rintro ⟨_, _, ⟨hversion, rfl⟩, s, _, hs, _, _, ⟨hwidget, rfl⟩, _, _, ⟨hcheck, rfl⟩, rfl, rfl⟩
    exact ⟨s, hs, hversion, hwidget, hcheck, rfl, rfl, rfl, rfl⟩
  · rintro ⟨s, hs, hversion, hwidget, hcheck, hthemes, hclasses, hstart, hfollow⟩
    refine ⟨_, _, ⟨hversion, rfl⟩, s, _, hs, _, _, ⟨hwidget, rfl⟩, _, _, ⟨hcheck, rfl⟩, ?_, rfl⟩
    rw [← hthemes, ← hclasses, ← hstart, ← hfollow]

/-- The elements of each kind come in the same order. So one list is a reordering of the other. -/
def SameOrder (es es' : List Element) : Prop := ∀ kind, ofKind kind es = ofKind kind es'

theorem SameOrder.gathered {es es' : List Element} (order : SameOrder es es')
    (h : Gathered custom source es s s' notices notices') :
    Gathered custom source es' s s' notices notices' where
  themes := order _ ▸ h.themes
  classes := order _ ▸ h.classes
  startTheme := order _ ▸ h.startTheme
  followSystem := order _ ▸ h.followSystem
  widget := order _ ▸ h.widget

/-- The children of a document may be mixed in another way. -/
theorem ofSections_of_sameOrder {root : Element} {children : List Element}
    (order : SameOrder root.children children) {d : Document}
    (h : (ofSections custom source root).run notices = (.ok d, notices')) :
    (ofSections custom source { root with children }).run notices = (.ok d, notices') := by
  obtain ⟨s, hs, hrest⟩ := ofSections_eq_ok_iff.mp h
  -- the version and the place of a missing widget are those of the element itself
  exact ofSections_eq_ok_iff.mpr ⟨s, order.gathered hs, hrest⟩

/-! ### A document whose sections are mixed in two ways -/

def themeSection (name : String) : Element :=
  ⟨"themes", [], [⟨"theme", [⟨"name", name, .origin⟩], [], .origin⟩], .origin⟩

def classSection : Element :=
  ⟨"styles", [], [⟨"class", [⟨"name", "card", .origin⟩], [], .origin⟩], .origin⟩

def startSection (name : String) : Element :=
  ⟨"default_theme", [⟨"name", name, .origin⟩], [], .origin⟩

def unfollowed : Element := ⟨"follow_system", [⟨"enabled", "false", .origin⟩], [], .origin⟩

def column : Element := ⟨"column", [], [⟨"rule", [], [], .origin⟩], .origin⟩

def mixed : Element :=
  ⟨documentTag, [],
    [themeSection "light", column, startSection "light", classSection, themeSection "dark",
    startSection "dark", unfollowed], .origin⟩

def unmixed : List Element :=
  [unfollowed, startSection "light", startSection "dark", themeSection "light", themeSection "dark",
    classSection, column]

def mixedDocument : Document where
  root :=
    { kind := .builtin .column, children := [{ kind := .builtin .rule, span := .origin }],
      span := .origin }
  themes := [("light", { name := "light" }), ("dark", { name := "dark" })]
  classes := [("card", { name := "card" })]
  startTheme := some "dark"
  followSystem := false

theorem ofSections_of_sameOrder_mixed : SameOrder mixed.children unmixed ∧
    (ofSections [] ⟨[]⟩ mixed).run [] = (.ok mixedDocument, []) ∧
    (ofSections [] ⟨[]⟩ { mixed with children := unmixed }).run [] = (.ok mixedDocument, []) := by
  have horder : SameOrder mixed.children unmixed := by
    rintro (_ | kind)
    · rfl
    · cases kind <;> rfl
  have hread : (ofSections [] ⟨[]⟩ mixed).run [] = (.ok mixedDocument, []) := rfl
  exact ⟨horder, hread, ofSections_of_sameOrder horder hread⟩

end Document
end UiMarkup
