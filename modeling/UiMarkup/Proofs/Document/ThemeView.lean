import UiMarkup.Proofs.Document.Definitions
import UiMarkup.Proofs.Theme.Validity

/-!
A file of themes that is read as a document. Themes are read in both ways alike, and so is whether
the system is followed. The theme to start with is told by the last section for it, and for a
document by the last one with a name.
-/

namespace UiMarkup

namespace ThemeDocument

open Document (ofKind ofKind_append ofKind_singleton putThemes setFollowing readThemes)
open OrderedMap (named)

/-- The theme that a section chooses takes the place of an earlier one, also
where it chooses none. -/
def setStart (_ : Option String) (e : Element) : Option String := e.get? "name"

/-- Some sections lead from one document of themes to another, as far as each kind of them goes. -/
structure Gathered (es : List Element) (d d' : ThemeDocument) : Prop where
  widgets : ofKind none es = []
  classes : ofKind (some .classes) es = []
  themes : (ofKind (some .themes) es).foldlM putThemes d.themes = .ok d'.themes
  default : (ofKind (some .startTheme) es).foldl setStart d.default = d'.default
  followSystem : (ofKind (some .followSystem) es).foldl setFollowing d.followSystem =
      d'.followSystem

theorem gathered_nil (d : ThemeDocument) : Gathered [] d d := ⟨rfl, rfl, rfl, rfl, rfl⟩

theorem Gathered.append {es es' : List Element} {d between d' : ThemeDocument}
    (h : Gathered es d between) (h' : Gathered es' between d') : Gathered (es ++ es') d d' := by
  constructor
  · rw [ofKind_append, h.widgets, h'.widgets, List.nil_append]
  · rw [ofKind_append, h.classes, h'.classes, List.nil_append]
  · rw [ofKind_append, List.foldlM_append]
    exact bind_eq_ok_iff.mpr ⟨_, h.themes, h'.themes⟩
  · rw [ofKind_append, List.foldl_append, h.default, h'.default]
  · rw [ofKind_append, List.foldl_append, h.followSystem, h'.followSystem]

/-- Themes that are new are themes written into the others. -/
theorem addThemes_eq_ok {m m' found : ThemeMap} {e : Element} (distinct : m.keys.Nodup)
    (hfound : ThemeMap.ofSection e = .ok found)
    (h : found.foldlM (fun m p => ThemeMap.addNew m p.2) m = .ok m') :
    putThemes m e = .ok m' ∧ m'.keys.Nodup := by
  obtain ⟨ts, -, rfl, -⟩ := ThemeMap.ofSection_eq_ok hfound
  have hnew : ts.foldlM ThemeMap.addNew m = .ok m' := by
    rw [named, List.foldlM_map] at h
    exact h
  obtain ⟨rfl, hdistinct⟩ := ThemeMap.foldlM_addNew_eq_ok hnew distinct
  have hread : readThemes e = .ok (named Theme.name ts) := by rw [readThemes, hfound]; rfl
  refine ⟨?_, hdistinct⟩
  rw [putThemes, hread, ← OrderedMap.putAll_eq_append hdistinct]
  rfl

/-- One section changes what its kind is for, and nothing else. -/
theorem addSection_eq_ok {d d' : ThemeDocument} {e : Element} (distinct : d.themes.keys.Nodup)
    (h : addSection d e = .ok d') : Gathered [e] d d' ∧ d'.themes.keys.Nodup := by
  rw [addSection] at h
  split at h
  · next hkind =>
    obtain ⟨found, hfound, h⟩ := bind_eq_ok_iff.mp h
    obtain ⟨m, hm, h⟩ := bind_eq_ok_iff.mp h
    obtain rfl := Except.ok.inj h
    obtain ⟨hput, hdistinct⟩ := addThemes_eq_ok distinct hfound hm
    refine ⟨⟨?_, ?_, ?_, ?_, ?_⟩, hdistinct⟩ <;> rw [ofKind_singleton, hkind]
    · rfl
    · rfl
    · rw [if_pos rfl, List.foldlM_cons, hput]
      rfl
    · rfl
    · rfl
  · next hkind =>
    obtain rfl := Except.ok.inj h
    refine ⟨⟨?_, ?_, ?_, ?_, ?_⟩, distinct⟩ <;> rw [ofKind_singleton, hkind] <;> rfl
  · next hkind =>
    obtain rfl := Except.ok.inj h
    refine ⟨⟨?_, ?_, ?_, ?_, ?_⟩, distinct⟩ <;> rw [ofKind_singleton, hkind]
    · rfl
    · rfl
    · rfl
    · rfl
    · rw [if_pos rfl, List.foldl_cons, List.foldl_nil, setFollowing]
  · cases h

theorem foldlM_addSection_eq_ok {d d' : ThemeDocument} {es : List Element}
    (distinct : d.themes.keys.Nodup) (h : es.foldlM addSection d = .ok d') : Gathered es d d' := by
  induction es generalizing d with
  | nil =>
      obtain rfl := Except.ok.inj h
      exact gathered_nil d
  | cons e es ih =>
      rw [List.foldlM_cons] at h
      obtain ⟨between, hbetween, h⟩ := bind_eq_ok_iff.mp h
      obtain ⟨hfirst, hdistinct⟩ := addSection_eq_ok distinct hbetween
      exact hfirst.append (ih hdistinct h)

theorem ofElement_of_read {bytes : List UInt8} {m : Markup} {d : ThemeDocument}
    (hm : Markup.read bytes = .ok m) (h : read bytes = .ok d) : ofElement m.root = .ok d := by
  rw [read, hm] at h
  obtain ⟨_, hmarkup, h⟩ := bind_eq_ok_iff.mp h
  obtain rfl := Except.ok.inj hmarkup
  obtain ⟨found, hfound, h⟩ := bind_eq_ok_iff.mp h
  obtain ⟨_, -, h⟩ := bind_eq_ok_iff.mp h
  obtain ⟨_, -, h⟩ := bind_eq_ok_iff.mp h
  obtain rfl := Except.ok.inj h
  exact hfound

end ThemeDocument

namespace Document

/-- The sections for the theme to start with. -/
def startSections (root : Element) : List Element := ofKind (some .startTheme) root.children

/-- The last section chooses no theme, but an earlier one does. -/
def TakesBack (sections : List Element) : Prop :=
  ∃ e, sections.getLast? = some e ∧ e.get? "name" = none ∧ ∃ e' ∈ sections, e'.get? "name" ≠ none

theorem foldl_setStart (sections : List Element) (start : Option String) :
    sections.foldl ThemeDocument.setStart start =
      (sections.getLast?.map (·.get? "name")).getD start := by
  induction sections using List.reverseRecOn with
  | nil => rfl
  | append_singleton es e _ => simp [ThemeDocument.setStart]

theorem foldl_chooseStart (sections : List Element) (start : Option String) :
    sections.foldl chooseStart start = (sections.filterMap (·.get? "name")).getLast?.or start := by
  induction sections using List.reverseRecOn with
  | nil => rfl
  | append_singleton es e ih =>
      rw [List.foldl_append, ih, List.filterMap_append]
      cases hname : e.get? "name" <;> simp [chooseStart, hname]

theorem last_eq_last_iff (sections : List Element) :
    (sections.filterMap (·.get? "name")).getLast? = sections.getLast?.bind (·.get? "name") ↔
    ¬ TakesBack sections := by
  induction sections using List.reverseRecOn with
  | nil => simp [TakesBack]
  | append_singleton es e _ =>
      cases hname : e.get? "name" <;> simp [TakesBack, hname]

/-- A file of themes is accepted as a document too. The same themes are found in it, and the same
theme to start with unless the last section takes it back. -/
theorem themeDocument_of_read {custom : List String} {bytes : List UInt8} {m : Markup}
    {t : ThemeDocument} (hm : Markup.read bytes = .ok m) (htag : m.root.tag = documentTag)
    (hversion : m.root.attribute? "version" = none) (h : ThemeDocument.read bytes = .ok t) :
    ∃ d, read custom bytes = (.ok d, []) ∧ d.themes = t.themes ∧ d.followSystem = t.followSystem ∧
      t.default = (startSections m.root).getLast?.bind (·.get? "name") ∧
      d.startTheme = ((startSections m.root).filterMap (·.get? "name")).getLast? ∧
      (d.themeDocument = t ↔ ¬ TakesBack (startSections m.root)) := by
  have hthemes : t.themes ≠ [] := (ThemeDocument.check_eq_ok (ThemeDocument.read_eq_ok h).1).1
  have helement := ThemeDocument.ofElement_of_read hm h
  have hroot : SectionKind.ofTag? m.root.tag ≠ some .themes := by
    rw [htag]
    decide
  rw [ThemeDocument.ofElement, if_neg hroot] at helement
  have hsections : ThemeDocument.Gathered m.root.children {} t :=
    ThemeDocument.foldlM_addSection_eq_ok List.nodup_nil helement
  -- with no widget among the sections, the document is an empty column
  let start := ((startSections m.root).filterMap (·.get? "name")).getLast?
  let s : Sections := { themes := t.themes, startTheme := start, followSystem := t.followSystem }
  let d : Document :=
    { root := { kind := .builtin .column, span := m.root.span }
      themes := t.themes
      startTheme := start
      followSystem := t.followSystem }
  have hgathered : Gathered custom m.source m.root.children {} s [] [] := by
    refine ⟨hsections.themes, ?_, (foldl_chooseStart _ _).trans Option.or_none,
      hsections.followSystem, ?_⟩
    · rw [hsections.classes]
      rfl
    · rw [hsections.widgets]
      rfl
  have hwidget : widgetOf s m.root = .ok d.root := by
    have hsome : s.themes.isEmpty = false := by simpa [s] using hthemes
    simp only [widgetOf, hsome, s]
    rfl
  have hread : read custom bytes = (.ok d, []) := by
    rw [read, hm]
    dsimp only
    rw [ofMarkup, if_pos htag]
    refine ofSections_eq_ok_iff.mpr ⟨s, hgathered, ?_, hwidget, rfl, rfl, rfl, rfl, rfl⟩
    rw [declaredVersion, hversion]
  have hdefault : t.default = (startSections m.root).getLast?.bind (·.get? "name") := by
    rw [← hsections.default, startSections, foldl_setStart]
    cases (ofKind (some .startTheme) m.root.children).getLast? <;> rfl
  refine ⟨d, hread, rfl, rfl, hdefault, rfl, ?_⟩
  rw [← last_eq_last_iff, ← hdefault]
  let view (start : Option String) : ThemeDocument := ⟨t.themes, start, t.followSystem⟩
  exact ⟨fun hsame => congrArg ThemeDocument.default hsame, fun hstart => congrArg view hstart⟩

/-! ### A file whose last section takes back the theme to start with -/

section TakenBack

open Text
open ThemeDocument (tan tanPalette)

variable (source : SourceMap) (s : Span)

def takenBack : Element :=
  ⟨documentTag, [], [
    ⟨"themes", [], [⟨"theme", [⟨"name", "tan", .origin⟩], [tanPalette], .origin⟩], .origin⟩,
    startSection "tan",
    ⟨"default_theme", [], [], .origin⟩], .origin⟩

def tanDocument : ThemeDocument where
  themes := [("tan", { name := "tan", palette := .fill tan PaletteColor.all, span := s })]

theorem simple_takenBack : ∀ e ∈ takenBack.walk, e.Simple := by
  intro e he
  simp only [takenBack, tanPalette, startSection, Element.walk, Element.walkAll, List.append_nil,
    List.cons_append, List.nil_append, List.mem_cons, List.not_mem_nil, or_false] at he
  obtain rfl | rfl | rfl | rfl | rfl | rfl := he <;> exact ⟨by decide, by decide, by decide⟩

theorem ofElement_takenBack :
    ∃ s, ThemeDocument.ofElement (takenBack.placed source 0) = .ok (tanDocument s) := by
  obtain ⟨o₁, o₂, s₁, s₂, s₃, s₄, s₅, s₆, hplaced⟩ : ∃ o₁ o₂ s₁ s₂ s₃ s₄ s₅ s₆,
      takenBack.placed source 0 = ⟨documentTag, [], [
        ⟨"themes", [], [
          ⟨"theme", Markup.placeAttributes source o₁ [("name", "tan")],
            [tanPalette.placed source o₂], s₁⟩], s₂⟩,
        ⟨"default_theme", [⟨"name", "tan", s₃⟩], [], s₄⟩, ⟨"default_theme", [], [], s₅⟩], s₆⟩ :=
    ⟨_, _, _, _, _, _, _, _, rfl⟩
  refine ⟨s₁, ?_⟩
  have hthemes : ThemeDocument.addSection {} ⟨"themes", [], [
      ⟨"theme", Markup.placeAttributes source o₁ [("name", "tan")],
        [tanPalette.placed source o₂], s₁⟩], s₂⟩ =
        .ok (tanDocument s₁) := by
    have hkind : SectionKind.ofTag? "themes" = some .themes := by rfl
    rw [ThemeDocument.addSection, hkind]
    simp only [ThemeMap.ofSection, List.foldlM_cons, ThemeMap.addChild, ThemeDocument.ofElement_tan]
    rfl
  have hroot : SectionKind.ofTag? documentTag ≠ some .themes := by decide
  rw [hplaced, ThemeDocument.ofElement, if_neg hroot, List.foldlM_cons, hthemes]
  rfl

theorem check_tanDocument : (tanDocument s).check = .ok () := by
  have hthemes : (tanDocument s).themes.checkEach (fun _ t => t.check) = .ok () := by
    refine ThemeMap.checkEach_eq_ok_iff.mpr fun name t ht => ?_
    have hmem : (name, t) ∈ (tanDocument s).themes := OrderedMap.mem_of_get?_eq_some ht
    obtain ⟨-, rfl⟩ := Prod.mk.inj (List.mem_singleton.mp hmem)
    refine Theme.check_of_palette (fun role c hc => ?_) (.inl rfl) rfl rfl rfl
    cases role <;> cases hc <;> rfl
  exact hthemes

theorem checkInheritance_tanDocument : (tanDocument s).themes.checkInheritance = .ok () := by
  have hresolved (p : Palette) :
      ThemeMap.resolveAll [("tan", { name := "tan", palette := p, span := s })] =
      .ok [("tan", { name := "tan", palette := p, span := s })] := by cbv
  rw [ThemeMap.checkInheritance, tanDocument, hresolved]
  refine ThemeMap.checkEach_eq_ok_iff.mpr fun name t ht => ?_
  obtain ⟨-, rfl⟩ := Prod.mk.inj (List.mem_singleton.mp (OrderedMap.mem_of_get?_eq_some ht))
  rfl

theorem themeDocument_of_read_takenBack :
    ∃ t d, ThemeDocument.read (encodeUtf8 takenBack.write) = .ok t ∧
    read [] (encodeUtf8 takenBack.write) = (.ok d, []) ∧ t.default = none ∧
    d.themeDocument.default = some "tan" ∧
    d.themeDocument ≠ t := by
  let root := takenBack.placed ⟨encodeUtf8 takenBack.write⟩ 0
  obtain ⟨s, hdocument⟩ := ofElement_takenBack ⟨encodeUtf8 takenBack.write⟩
  have hread : ThemeDocument.read (encodeUtf8 takenBack.write) = .ok (tanDocument s) := by
    refine bind_eq_ok_iff.mpr ⟨_, by rw [Element.read_write simple_takenBack]; rfl, ?_⟩
    refine bind_eq_ok_iff.mpr ⟨_, hdocument, ?_⟩
    refine bind_eq_ok_iff.mpr ⟨(), mapError_eq_ok_iff.mpr (check_tanDocument s), ?_⟩
    exact bind_eq_ok_iff.mpr ⟨(), mapError_eq_ok_iff.mpr (checkInheritance_tanDocument s), rfl⟩
  have htag : root.tag = documentTag := by rfl
  have hversion : root.attribute? "version" = none := by rfl
  have hstart : ((startSections root).filterMap (·.get? "name")).getLast? = some "tan" := by rfl
  obtain ⟨d, hd, -, -, -, hlast, -⟩ :=
    themeDocument_of_read (Element.read_write simple_takenBack) htag hversion hread
  have hdefault : d.themeDocument.default = some "tan" := hlast.trans hstart
  refine ⟨_, d, hread, hd, rfl, hdefault, fun hsame => ?_⟩
  rw [hsame] at hdefault
  cases hdefault

end TakenBack

end Document
end UiMarkup
