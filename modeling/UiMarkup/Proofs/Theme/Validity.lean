import UiMarkup.Document.ThemeFile
import UiMarkup.Proofs.Document.Ends
import UiMarkup.Proofs.Markup.Writing
import UiMarkup.Proofs.Theme.ClassValidity

/-!
The themes of a file that is read can be used as they are. There is one at least, the default is one
of them, all can inherit, and what they have then inherited is complete and valid: each role has a
valid color, and base styles are valid.
-/

namespace UiMarkup

theorem PaletteColor.ofName?_name (role : PaletteColor) : ofName? role.name = some role := by
  cases role <;> decide

namespace Palette

theorem missing_eq_nil_iff (p : Palette) : p.missing = [] ↔ ∀ role, ∃ c, p.color role = some c := by
  simp [missing, PaletteColor.mem_all, Option.ne_none_iff_exists']

/-- The palette with one color for some roles. -/
def fill (c : Color) (roles : List PaletteColor) : Palette :=
  roles.foldl (fun p role => p.set role c) .empty

/-- Attributes that give one color to some roles. -/
theorem ofElement_of_parse {value : String} {c : Color} (hvalue : Color.parse value.toList = .ok c)
    {e : Element} {roles : List PaletteColor}
    (he : e.values = roles.map fun role => (role.name, value)) (theme : String) :
    ofElement e theme = .ok (fill c roles) := by
  have hall (attributes : List Attribute) (roles : List PaletteColor) (p : Palette)
      (h : attributes.map (fun a => (a.name, a.value)) = roles.map fun role => (role.name, value)) :
      attributes.foldlM (addAttribute e theme) p =
        .ok (roles.foldl (fun p role => p.set role c) p) := by
    induction roles generalizing attributes p with
    | nil =>
        obtain rfl := List.map_eq_nil_iff.mp h
        rfl
    | cons role roles ih =>
        obtain ⟨a, more, rfl, ha, hmore⟩ := List.map_eq_cons_iff.mp h
        obtain ⟨hname, hsame⟩ := Prod.mk.inj ha
        rw [List.foldlM_cons, addAttribute, hname, PaletteColor.ofName?_name, hsame]
        simp only [hvalue]
        exact ih more _ hmore
  exact hall e.attributes roles .empty he

end Palette

namespace Theme

/-- The colors and base styles that are set are valid. -/
structure Sound (t : Theme) : Prop where
  colors : ∀ role c, t.palette.color role = some c → c.check = .ok ()
  baseStyles : ∀ p ∈ t.baseStyles, p.2.check = .ok ()

theorem check_eq_ok_iff (t : Theme) : t.check = .ok () ↔ t.problems = [] := by
  rw [check, errors]
  cases t.problems <;> simp

theorem problems_eq_nil {t : Theme} (h : t.problems = []) :
    (t.palette.missing = [] ∨ t.parent.isSome) ∧ (∀ role, t.colorErrors role = []) ∧
    t.baseStyleErrors = [] := by
  simp only [problems, List.append_eq_nil_iff, List.flatMap_eq_nil_iff] at h
  obtain ⟨⟨⟨⟨hmissing, hcolors⟩, -⟩, -⟩, hstyles⟩ := h
  refine ⟨?_, fun role => hcolors role role.mem_all, hstyles⟩
  by_cases hparent : t.parent.isSome
  · exact .inr hparent
  · exact .inl (by simpa [hparent] using hmissing)

theorem sound_of_check {t : Theme} (h : t.check = .ok ()) : t.Sound := by
  obtain ⟨-, hcolors, hstyles⟩ := problems_eq_nil (t.check_eq_ok_iff.mp h)
  constructor
  · intro role c hc
    have hnone := hcolors role
    rw [colorErrors, hc] at hnone
    cases hcheck : c.check with
    | ok _ => rfl
    | error fault => simp [hcheck] at hnone
  · intro p hp
    rw [baseStyleErrors, List.flatMap_eq_nil_iff] at hstyles
    have hnone := hstyles p (List.mem_mergeSort.mpr hp)
    cases hcheck : p.2.check with
    | ok _ => rfl
    | error fault => simp [hcheck] at hnone

/-- A theme that sets valid colors and nothing else. -/
theorem check_of_palette {t : Theme}
    (hcolors : ∀ role c, t.palette.color role = some c → c.check = .ok ())
    (hmissing : t.palette.missing = [] ∨ t.parent.isSome) (htypography : t.typography = {})
    (hspacing : t.spacing = none) (hstyles : t.baseStyles = []) : t.check = .ok () := by
  have hcolorErrors (role : PaletteColor) : t.colorErrors role = [] := by
    rw [colorErrors]
    split
    · rfl
    · rename_i c hc
      rw [hcolors role c hc]
  have htypography : t.typography.problems = [] := by rw [htypography]; rfl
  rw [check_eq_ok_iff, problems, htypography, hspacing, baseStyleErrors, hstyles]
  obtain hmissing | hparent := hmissing
  · simp [hcolorErrors, hmissing]
  · simp [hcolorErrors, hparent]

theorem missing_of_check {t : Theme} (h : t.check = .ok ()) (hparent : t.parent = none) :
    t.palette.missing = [] := by
  obtain ⟨hmissing, -⟩ := problems_eq_nil (t.check_eq_ok_iff.mp h)
  simpa [hparent] using hmissing

theorem Sound.inherit {t p : Theme} (ht : t.Sound) (hp : p.Sound) : (t.inherit p).Sound := by
  constructor
  · intro role c hc
    obtain hc | ⟨-, hc⟩ := Option.or_eq_some_iff.mp hc
    · exact ht.colors role c hc
    · exact hp.colors role c hc
  · intro q hq
    obtain hq | hq := OrderedMap.mem_putAll hq
    · exact hp.baseStyles q hq
    · exact ht.baseStyles q hq

theorem mergeParents_own (t : Theme) (ps : List Theme) :
    (t.mergeParents ps).name = t.name ∧ (t.mergeParents ps).parent = t.parent ∧
    (t.mergeParents ps).span = t.span := by
  cases ps <;> exact ⟨rfl, rfl, rfl⟩

end Theme

namespace ThemeMap

variable {m : ThemeMap}

theorem checkEach_eq_ok_iff {check : String → Theme → Except ThemeError Unit} :
    m.checkEach check = .ok () ↔ ∀ name t, m.get? name = some t → check name t = .ok () := by
  rw [checkEach, forM_eq_ok_iff]
  constructor
  · intro h name t ht
    have hmem : name ∈ m.keys := (m.has_iff_mem_keys name).mp (by simp [OrderedMap.has, ht])
    have := h name (List.mem_mergeSort.mpr hmem)
    simpa [ht] using this
  · intro h name _
    cases ht : m.get? name with
    | none => rfl
    | some t => exact h name t ht

theorem resolveAll_eq_ok_iff {r : ThemeMap} :
    m.resolveAll = .ok r ↔ m.lineage.resolveAllFresh = .ok r := by
  rw [resolveAll]
  cases m.lineage.resolveAllFresh <;> simp [Except.mapError]

theorem assemble_eq (m : ThemeMap) (t : Theme) (form : String → Theme) :
    m.lineage.assemble t ((m.lineage.parents t).map form) =
      t.mergeParents (t.parents.map form) := by
  cases h : t.parents <;> simp [Lineage.assemble, lineage, h, Theme.mergeParents]

/-- A theme without a parent stays as it is, and the parent of any is still its own. -/
theorem parent_of_derives {name : String} {d : Nat} {v : Theme}
    (derived : m.lineage.Derives name d v) :
    ∃ t, m.get? name = some t ∧ v.parent = t.parent ∧ (t.parent = none → v = t) := by
  cases derived with
  | @intro _ t depth form found _ =>
      rw [assemble_eq]
      refine ⟨t, found, (t.mergeParents_own _).2.1, fun hparent => ?_⟩
      rw [Theme.parents, hparent]
      rfl

theorem sound_of_derives (valid : ∀ name t, m.get? name = some t → t.Sound) {name : String}
    {d : Nat} {v : Theme} (derived : m.lineage.Derives name d v) : v.Sound := by
  induction derived with
  | @intro name t depth form found _ ih =>
      rw [assemble_eq]
      -- only the first parent is merged
      cases hparents : t.parents with
      | nil => exact valid name t found
      | cons p ps =>
          have hp : p ∈ m.lineage.parents t := by simp [lineage, hparents]
          exact (valid name t found).inherit (ih p hp)

end ThemeMap

namespace ThemeDocument

theorem check_eq_ok {d : ThemeDocument} (h : d.check = .ok ()) :
    d.themes ≠ [] ∧ (∀ name, d.default = some name → d.themes.has name = true) ∧
      ∀ name t, d.themes.get? name = some t → t.check = .ok () := by
  rw [check] at h
  split at h
  · cases h
  · rename_i hthemes
    have hne : d.themes ≠ [] := by simpa using hthemes
    dsimp only at h
    split at h
    · rename_i name hname
      split at h
      · cases h
      · rename_i hhas
        refine ⟨hne, fun other hother => ?_, ThemeMap.checkEach_eq_ok_iff.mp h⟩
        obtain rfl : name = other := Option.some.inj (hname.symm.trans hother)
        simpa using hhas
    · rename_i hnone
      exact ⟨hne, by simp [hnone], ThemeMap.checkEach_eq_ok_iff.mp h⟩

theorem checkInheritance_eq_ok {m : ThemeMap} (h : m.checkInheritance = .ok ()) :
    ∃ r, m.resolveAll = .ok r ∧ ∀ name t, r.get? name = some t → t.parent.isSome →
      t.palette.missing = [] := by
  obtain ⟨r, hr, h⟩ := bind_eq_ok_iff.mp h
  refine ⟨r, hr, fun name t ht hparent => ?_⟩
  have hcheck := ThemeMap.checkEach_eq_ok_iff.mp h name t ht
  rw [ThemeMap.checkInherited] at hcheck
  split at hcheck
  · cases hcheck
  · rename_i hmissing
    simpa [hparent] using hmissing

theorem read_eq_ok {bytes : List UInt8} {d : ThemeDocument} (h : read bytes = .ok d) :
    d.check = .ok () ∧ d.themes.checkInheritance = .ok () := by
  obtain ⟨markup, -, h⟩ := bind_eq_ok_iff.mp h
  obtain ⟨d', -, h⟩ := bind_eq_ok_iff.mp h
  obtain ⟨_, hcheck, h⟩ := bind_eq_ok_iff.mp h
  obtain ⟨_, hinheritance, h⟩ := bind_eq_ok_iff.mp h
  obtain rfl := Except.ok.inj h
  exact ⟨mapError_eq_ok_iff.mp hcheck, mapError_eq_ok_iff.mp hinheritance⟩

theorem usable_of_read {bytes : List UInt8} {d : ThemeDocument} (h : read bytes = .ok d) :
    d.themes ≠ [] ∧ (∀ name, d.default = some name → d.themes.has name = true) ∧
    ∃ resolved, d.themes.resolveAll = .ok resolved ∧ resolved.keys = d.themes.keys ∧
      ∀ name t, resolved.get? name = some t →
        (∀ role, ∃ c, t.palette.color role = some c ∧ c.check = .ok ()) ∧
        ∀ tag style, (tag, style) ∈ t.baseStyles → style.check = .ok () := by
  obtain ⟨hcheck, hinheritance⟩ := read_eq_ok h
  obtain ⟨hthemes, hdefault, hvalid⟩ := check_eq_ok hcheck
  obtain ⟨resolved, hresolved, hcomplete⟩ := checkInheritance_eq_ok hinheritance
  obtain ⟨hkeys, hforms⟩ := Lineage.resolveAllFresh_ok (ThemeMap.resolveAll_eq_ok_iff.mp hresolved)
  refine ⟨hthemes, hdefault, resolved, hresolved, hkeys, fun name t ht => ?_⟩
  have hname : name ∈ d.themes.keys :=
    hkeys ▸ (OrderedMap.has_iff_mem_keys resolved name).mp (by simp [OrderedMap.has, ht])
  obtain ⟨depth, v, hderives, -, hv⟩ := hforms name ((OrderedMap.has_iff_mem_keys _ name).mpr hname)
  obtain rfl : v = t := Option.some.inj (hv.symm.trans ht)
  have hsound :=
    ThemeMap.sound_of_derives (fun n u hu => Theme.sound_of_check (hvalid n u hu)) hderives
  have hmissing : v.palette.missing = [] := by
    cases hparent : v.parent with
    | some p => exact hcomplete name v ht (by simp [hparent])
    | none =>
        obtain ⟨u, hu, hsame, hself⟩ := ThemeMap.parent_of_derives hderives
        obtain rfl := hself (hsame ▸ hparent)
        exact Theme.missing_of_check (hvalid name _ hu) hparent
  refine ⟨fun role => ?_, fun tag style hstyle => hsound.baseStyles (tag, style) hstyle⟩
  obtain ⟨c, hc⟩ := v.palette.missing_eq_nil_iff.mp hmissing role
  exact ⟨c, hc, hsound.colors role c hc⟩

/-! ### A file with a theme and another one on top of it -/

section Dusk

open Text

variable (source : SourceMap) (s₁ s₂ : Span)

def tan : Color := .ofBytes 0xd2 0xb4 0x8c 1.0

def navy : Color := .ofBytes 0 0 0x80 1.0

def tanPalette : Element :=
  ⟨"palette", PaletteColor.all.map fun role => ⟨role.name, "tan", .origin⟩, [], .origin⟩

def navyText : Element := ⟨"palette", [⟨"text", "navy", .origin⟩], [], .origin⟩

/-- A theme that is tan all over, and one that adds navy texts. -/
def dusk : Element :=
  ⟨"themes", [⟨"default", "dusk", .origin⟩], [
    ⟨"theme", [⟨"name", "tan", .origin⟩], [tanPalette], .origin⟩,
    ⟨"theme", [⟨"name", "dusk", .origin⟩, ⟨"extends", "tan", .origin⟩], [navyText], .origin⟩],
    .origin⟩

def duskThemes (p q : Palette) : ThemeMap :=
  [("tan", { name := "tan", palette := p, span := s₁ }),
    ("dusk", { name := "dusk", palette := q, parent := some "tan", span := s₂ })]

def duskDocument : ThemeDocument :=
  ⟨duskThemes s₁ s₂ (.fill tan PaletteColor.all) (.fill navy [.text]), some "dusk", true⟩

theorem simple_dusk : ∀ d ∈ dusk.walk, d.Simple := by
  intro d hd
  simp only [dusk, tanPalette, navyText, Element.walk, Element.walkAll, List.append_nil,
    List.cons_append, List.nil_append, List.mem_cons, List.not_mem_nil, or_false] at hd
  obtain rfl | rfl | rfl | rfl | rfl := hd <;> exact ⟨by decide, by decide, by decide⟩

theorem ofElement_tan (offset inner : Nat) : Theme.ofElement
    ⟨"theme", Markup.placeAttributes source offset [("name", "tan")],
      [tanPalette.placed source inner], s₁⟩ =
      .ok { name := "tan", palette := .fill tan PaletteColor.all, span := s₁ } := by
  have hpalette (theme : String) : Palette.ofElement (tanPalette.placed source inner) theme =
      .ok (.fill tan PaletteColor.all) :=
    Palette.ofElement_of_parse (by decide +kernel) (tanPalette.values_placed source inner) theme
  have htag : (tanPalette.placed source inner).tag = "palette" := rfl
  rw [Theme.ofElement]
  simp only [List.foldlM_cons, Theme.addChild, htag, hpalette]
  rfl

theorem ofElement_navy (offset inner : Nat) : Theme.ofElement
    ⟨"theme", Markup.placeAttributes source offset [("name", "dusk"), ("extends", "tan")],
      [navyText.placed source inner], s₂⟩ =
      .ok { name := "dusk", palette := .fill navy [.text], parent := some "tan", span := s₂ } := by
  have hpalette (theme : String) : Palette.ofElement (navyText.placed source inner) theme =
      .ok (.fill navy [.text]) :=
    Palette.ofElement_of_parse (by decide +kernel) (navyText.values_placed source inner) theme
  have htag : (navyText.placed source inner).tag = "palette" := rfl
  have hextends (children : List Element) : Element.get?
      ⟨"theme", Markup.placeAttributes source offset [("name", "dusk"), ("extends", "tan")],
        children, s₂⟩ "extends" =
        some "tan" := by rfl
  have hparent : Theme.nonEmpty? (some (String.ofList (trim "tan".toList))) = some "tan" := by rfl
  rw [Theme.ofElement]
  simp only [List.foldlM_cons, Theme.addChild, htag, hpalette, hextends, Option.map_some, hparent]
  rfl

theorem ofElement_dusk : ∃ s₁ s₂, ofElement (dusk.placed source 0) = .ok (duskDocument s₁ s₂) := by
  have hplaced : ∃ o₁ o₂ o₃ o₄ s₀ s₁ s₂, dusk.placed source 0 =
      ⟨"themes", Markup.placeAttributes source 0 [("default", "dusk")], [
        ⟨"theme", Markup.placeAttributes source o₁ [("name", "tan")],
          [tanPalette.placed source o₂], s₁⟩,
        ⟨"theme", Markup.placeAttributes source o₃ [("name", "dusk"), ("extends", "tan")],
          [navyText.placed source o₄], s₂⟩], s₀⟩ :=
    ⟨_, _, _, _, _, _, _, rfl⟩
  obtain ⟨_, _, _, _, _, s₁, s₂, hplaced⟩ := hplaced
  have hsection : ThemeMap.ofSection (dusk.placed source 0) = .ok (duskDocument s₁ s₂).themes := by
    rw [hplaced, ThemeMap.ofSection]
    simp only [List.foldlM_cons, ThemeMap.addChild, ofElement_tan, ofElement_navy]
    rfl
  have htag : SectionKind.ofTag? (dusk.placed source 0).tag = some .themes := by rfl
  refine ⟨s₁, s₂, ?_⟩
  rw [ofElement, if_pos htag, addSection, htag]
  simp only [hsection]
  rfl

theorem mem_duskThemes {p q : Palette} {name : String} {t : Theme}
    (h : (duskThemes s₁ s₂ p q).get? name = some t) :
    t = { name := "tan", palette := p, span := s₁ } ∨
      t = { name := "dusk", palette := q, parent := some "tan", span := s₂ } := by
  have hmem := OrderedMap.mem_of_get?_eq_some h
  simp only [duskThemes, List.mem_cons, List.not_mem_nil, or_false, Prod.mk.injEq] at hmem
  exact hmem.imp And.right And.right

theorem check_dusk : (duskDocument s₁ s₂).check = .ok () := by
  have hthemes : (duskDocument s₁ s₂).themes.checkEach (fun _ t => t.check) = .ok () := by
    refine ThemeMap.checkEach_eq_ok_iff.mpr fun name t ht => ?_
    obtain rfl | rfl := mem_duskThemes s₁ s₂ ht
    · refine Theme.check_of_palette (fun role c hc => ?_) (.inl rfl) rfl rfl rfl
      cases role <;> cases hc <;> rfl
    · refine Theme.check_of_palette (fun role c hc => ?_) (.inr rfl) rfl rfl rfl
      cases role <;> cases hc
      rfl
  exact hthemes

theorem checkInheritance_dusk : (duskDocument s₁ s₂).themes.checkInheritance = .ok () := by
  have hresolved (p q : Palette) :
      (duskThemes s₁ s₂ p q).resolveAll = .ok (duskThemes s₁ s₂ p (q.withDefaults p)) := by cbv
  rw [ThemeMap.checkInheritance, duskDocument, hresolved]
  refine ThemeMap.checkEach_eq_ok_iff.mpr fun name t ht => ?_
  obtain rfl | rfl := mem_duskThemes s₁ s₂ ht <;> rfl

theorem usable_of_read_dusk : ∃ d, read (encodeUtf8 dusk.write) = .ok d ∧
    d.themes ≠ [] ∧ (∀ name, d.default = some name → d.themes.has name = true) ∧
    ∃ resolved, d.themes.resolveAll = .ok resolved ∧ resolved.keys = d.themes.keys ∧
      ∀ name t, resolved.get? name = some t →
        (∀ role, ∃ c, t.palette.color role = some c ∧ c.check = .ok ()) ∧
        ∀ tag style, (tag, style) ∈ t.baseStyles → style.check = .ok () := by
  obtain ⟨s₁, s₂, hdocument⟩ := ofElement_dusk ⟨encodeUtf8 dusk.write⟩
  have hread : read (encodeUtf8 dusk.write) = .ok (duskDocument s₁ s₂) := by
    refine bind_eq_ok_iff.mpr ⟨_, by rw [Element.read_write simple_dusk]; rfl, ?_⟩
    refine bind_eq_ok_iff.mpr ⟨_, hdocument, ?_⟩
    refine bind_eq_ok_iff.mpr ⟨(), mapError_eq_ok_iff.mpr (check_dusk s₁ s₂), ?_⟩
    exact bind_eq_ok_iff.mpr ⟨(), mapError_eq_ok_iff.mpr (checkInheritance_dusk s₁ s₂), rfl⟩
  exact ⟨_, hread, usable_of_read hread⟩

end Dusk
end ThemeDocument
end UiMarkup
