import UiMarkup.Proofs.DistinctKeys
import UiMarkup.Proofs.Document.Sections
import UiMarkup.Proofs.Markup.Writing

/-!
The definitions of a document, which are its themes and its style classes. A document keeps the last
definition of each name, so it has as many as were written only if all names differ. Only inside one
section of themes they have to.
-/

namespace UiMarkup

namespace OrderedMap

variable {κ α : Type}

/-- Values under their names. -/
def named (name : α → κ) (as : List α) : OrderedMap κ α := as.map fun a => (name a, a)

@[simp] theorem keys_named (name : α → κ) (as : List α) : keys (named name as) = as.map name := by
  rw [keys, named, List.map_map]
  rfl

@[simp] theorem named_append (name : α → κ) (as as' : List α) :
    named name (as ++ as') = named name as ++ named name as' :=
  List.map_append

end OrderedMap

open OrderedMap (HoldsLast named)

variable {α β : Type}

/-- Reading those elements of a list that are definitions, and adding each to what there is by then,
comes to reading all of them and adding them one after another. -/
theorem exists_of_foldlM_filter {isDefinition : Element → Bool}
    {ofElement : Element → Except ReadFault α} {add : β → α → Except ReadFault β}
    {es : List Element} {m m' : β}
    (h : es.foldlM (fun m e => if isDefinition e then do add m (← ofElement e) else .ok m) m =
      .ok m') :
    ∃ as, (es.filter isDefinition).mapM ofElement = .ok as ∧ as.foldlM add m = .ok m' := by
  induction es generalizing m with
  | nil => exact ⟨[], rfl, h⟩
  | cons e es ih =>
      rw [List.foldlM_cons] at h
      obtain ⟨between, hbetween, h⟩ := bind_eq_ok_iff.mp h
      obtain ⟨as, has, hadd⟩ := ih h
      split at hbetween
      · next hdefinition =>
        obtain ⟨a, ha, hfirst⟩ := bind_eq_ok_iff.mp hbetween
        refine ⟨a :: as, ?_, ?_⟩
        · rw [List.filter_cons_of_pos hdefinition, List.mapM_cons]
          exact bind_eq_ok_iff.mpr ⟨a, ha, bind_eq_ok_iff.mpr ⟨as, has, rfl⟩⟩
        · rw [List.foldlM_cons]
          exact bind_eq_ok_iff.mpr ⟨between, hfirst, hadd⟩
      · next hdefinition =>
        obtain rfl := Except.ok.inj hbetween
        exact ⟨as, by rwa [List.filter_cons_of_neg hdefinition], hadd⟩

/-! ### Sections -/

namespace ThemeMap

def isDefinition (e : Element) : Bool := e.tag = "theme"

/-- The themes that are written in a section. -/
def elements (e : Element) : List Element := e.children.filter isDefinition

theorem addNew_eq_ok {m m' : ThemeMap} {t : Theme} (h : addNew m t = .ok m') :
    t.name ∉ m.keys ∧ m' = m ++ named Theme.name [t] := by
  rw [addNew] at h
  split at h
  · cases h
  · next hnew =>
    obtain rfl := Except.ok.inj h
    have hnew : t.name ∉ m.keys := fun hmem => hnew ((m.has_iff_mem_keys t.name).mpr hmem)
    have hput := OrderedMap.put_append hnew [] t
    rw [List.append_nil] at hput
    exact ⟨hnew, hput⟩

/-- Themes that are new one after another come behind the others, and all names differ. -/
theorem foldlM_addNew_eq_ok {m m' : ThemeMap} {ts : List Theme} (h : ts.foldlM addNew m = .ok m')
    (distinct : m.keys.Nodup) : m' = m ++ named Theme.name ts ∧ m'.keys.Nodup := by
  induction ts generalizing m with
  | nil =>
      obtain rfl := Except.ok.inj h
      exact ⟨(List.append_nil m).symm, distinct⟩
  | cons t ts ih =>
      rw [List.foldlM_cons] at h
      obtain ⟨between, hbetween, h⟩ := bind_eq_ok_iff.mp h
      obtain ⟨hnew, rfl⟩ := addNew_eq_ok hbetween
      have hdistinct : (OrderedMap.keys (m ++ named Theme.name [t])).Nodup := by
        rw [OrderedMap.keys, List.map_append]
        exact List.concat_eq_append ▸ distinct.concat hnew
      obtain ⟨rfl, hall⟩ := ih h hdistinct
      exact ⟨by simp [named], hall⟩

/-- In one section, no two themes have the same name. -/
theorem ofSection_eq_ok {e : Element} {m : ThemeMap} (h : ofSection e = .ok m) :
    ∃ ts, (elements e).mapM Theme.ofElement = .ok ts ∧ m = named Theme.name ts ∧
      (ts.map Theme.name).Nodup := by
  have hstep : addChild = fun m c =>
      if isDefinition c then do addNew m (← Theme.ofElement c) else .ok m := by
    funext m c
    simp only [addChild, isDefinition, decide_eq_true_eq]
  rw [ofSection, hstep] at h
  obtain ⟨ts, hts, hnew⟩ := exists_of_foldlM_filter h
  obtain ⟨rfl, hdistinct⟩ := foldlM_addNew_eq_ok hnew List.nodup_nil
  exact ⟨ts, hts, rfl, by simpa using hdistinct⟩

end ThemeMap

namespace ClassMap

def isDefinition (e : Element) : Bool := classTags.contains e.tag

/-- The style classes that are written in a section. -/
def elements (e : Element) : List Element := e.children.filter isDefinition

/-- The classes with one more. -/
def add (m : ClassMap) (c : StyleClass) : Except ReadFault ClassMap := .ok (m.put c.name c)

theorem holdsLast_of_foldlM {m m' : ClassMap} {pairs : List (String × StyleClass)}
    {cs : List StyleClass} (before : m.HoldsLast pairs) (h : cs.foldlM add m = .ok m') :
    m'.HoldsLast (pairs ++ named StyleClass.name cs) := by
  induction cs generalizing m pairs with
  | nil =>
      obtain rfl := Except.ok.inj h
      simpa [named] using before
  | cons c cs ih => simpa [named] using ih (before.put c.name c) h

/-- In one section, the last style class of each name counts. -/
theorem ofSection_eq_ok {e : Element} {m : ClassMap} (h : ofSection e = .ok m) :
    ∃ cs, (elements e).mapM StyleClass.ofElement = .ok cs ∧
      m.HoldsLast (named StyleClass.name cs) := by
  have hstep : addChild = fun m c =>
      if isDefinition c then do add m (← StyleClass.ofElement c) else .ok m := rfl
  rw [ofSection, hstep] at h
  obtain ⟨cs, hcs, hput⟩ := exists_of_foldlM_filter h
  exact ⟨cs, hcs, holdsLast_of_foldlM .nil hput⟩

end ClassMap

/-! ### Documents -/

namespace Document

/-- Sections whose maps are written one into another keep the last definition of each name. -/
theorem exists_of_foldlM_putAll {name : α → String}
    {readSection : Element → Except ReadFault (OrderedMap String α)}
    {elements : Element → List Element} {ofElement : Element → Except ReadFault α}
    (spec : ∀ e m, readSection e = .ok m → ∃ as, (elements e).mapM ofElement = .ok as ∧
      m.HoldsLast (named name as))
    {m m' : OrderedMap String α} {pairs : List (String × α)} {sections : List Element}
    (before : m.HoldsLast pairs)
    (h : sections.foldlM (fun m e => do return m.putAll (← readSection e)) m = .ok m') :
    (∃ as, (sections.flatMap elements).mapM ofElement = .ok as ∧
      m'.HoldsLast (pairs ++ named name as)) ∧
      ∀ e ∈ sections, ∃ found, readSection e = .ok found := by
  induction sections generalizing m pairs with
  | nil =>
      obtain rfl := Except.ok.inj h
      exact ⟨⟨[], rfl, by simpa [named] using before⟩, by simp⟩
  | cons e sections ih =>
      rw [List.foldlM_cons] at h
      obtain ⟨_, hbetween, h⟩ := bind_eq_ok_iff.mp h
      obtain ⟨found, hfound, hput⟩ := bind_eq_ok_iff.mp hbetween
      obtain rfl := Except.ok.inj hput
      obtain ⟨as, has, hlast⟩ := spec e found hfound
      obtain ⟨⟨as', has', hlast'⟩, hfound'⟩ := ih (before.putAll hlast) h
      refine ⟨⟨as ++ as', ?_, by simpa using hlast'⟩,
        List.forall_mem_cons.mpr ⟨⟨found, hfound⟩, hfound'⟩⟩
      rw [List.flatMap_cons, List.mapM_append]
      exact bind_eq_ok_iff.mpr ⟨as, has, bind_eq_ok_iff.mpr ⟨as', has', rfl⟩⟩

/-- The themes that are written in the sections of a document. -/
def themeElements (root : Element) : List Element :=
  (ofKind (some .themes) root.children).flatMap ThemeMap.elements

/-- The style classes that are written in the sections of a document. -/
def classElements (root : Element) : List Element :=
  (ofKind (some .classes) root.children).flatMap ClassMap.elements

theorem ofSection_of_readThemes {e : Element} {m : ThemeMap} (h : readThemes e = .ok m) :
    ThemeMap.ofSection e = .ok m := by
  rw [readThemes] at h
  cases hsection : ThemeMap.ofSection e with
  | ok found => simpa [hsection, Except.mapError] using h
  | error fault => simp [hsection, Except.mapError] at h

theorem length_eq_iff_of_mapM {name : α → String} {ofElement : Element → Except ReadFault α}
    {es : List Element} {as : List α} {m : OrderedMap String α} (h : es.mapM ofElement = .ok as)
    (hlast : m.HoldsLast (named name as)) : m.length = es.length ↔ (as.map name).Nodup := by
  have hlength : (named name as).length = es.length := (List.length_map _).trans (length_of_mapM h)
  rw [← hlength, hlast.length_eq_iff, OrderedMap.keys_named]

/-- As many definitions are kept as are written exactly where no two of them have one name. -/
theorem definitions_of_read {custom : List String} {bytes : List UInt8} {d : Document}
    {notices : List Notice} (h : read custom bytes = (.ok d, notices)) :
    ∃ m, Markup.read bytes = .ok m ∧ (m.root.tag = documentTag →
      (∃ ts, (themeElements m.root).mapM Theme.ofElement = .ok ts ∧
        d.themes.HoldsLast (named Theme.name ts) ∧
        (d.themes.length = (themeElements m.root).length ↔ (ts.map Theme.name).Nodup)) ∧
      (∃ cs, (classElements m.root).mapM StyleClass.ofElement = .ok cs ∧
        d.classes.HoldsLast (named StyleClass.name cs) ∧
        (d.classes.length = (classElements m.root).length ↔ (cs.map StyleClass.name).Nodup)) ∧
      ∀ e ∈ ofKind (some .themes) m.root.children,
        ∃ ts, (ThemeMap.elements e).mapM Theme.ofElement = .ok ts ∧ (ts.map Theme.name).Nodup) := by
  obtain ⟨m, hm, notices₀, notices', hd⟩ := exists_markup_of_read h
  refine ⟨m, hm, fun htag => ?_⟩
  rw [ofMarkup, if_pos htag] at hd
  obtain ⟨s, hs, -, -, -, hthemes, hclasses, -, -⟩ := ofSections_eq_ok_iff.mp hd
  have hsection {e : Element} {found : ThemeMap} (hfound : readThemes e = .ok found) :=
    ThemeMap.ofSection_eq_ok (ofSection_of_readThemes hfound)
  obtain ⟨⟨ts, hts, hlast⟩, hread⟩ := exists_of_foldlM_putAll (fun e found hfound => by
    obtain ⟨ts, hts, rfl, hdistinct⟩ := hsection hfound
    exact ⟨ts, hts, .of_distinct (by simpa using hdistinct)⟩) .nil hs.themes
  obtain ⟨⟨cs, hcs, hlast'⟩, -⟩ :=
    exists_of_foldlM_putAll (fun _ _ => ClassMap.ofSection_eq_ok) .nil hs.classes
  rw [hthemes, hclasses]
  refine ⟨⟨ts, hts, hlast, length_eq_iff_of_mapM hts hlast⟩,
    ⟨cs, hcs, hlast', length_eq_iff_of_mapM hcs hlast'⟩, fun e he => ?_⟩
  obtain ⟨found, hfound⟩ := hread e he
  obtain ⟨ts, hts, -, hdistinct⟩ := hsection hfound
  exact ⟨ts, hts, hdistinct⟩

/-! ### A document with a theme and a style class that are written twice -/

section Twice

open Text

variable (source : SourceMap) (s s₁ s₂ : Span)

def twice : Element :=
  ⟨documentTag, [], [themeSection "day", themeSection "day", classSection, classSection], .origin⟩

theorem simple_twice : ∀ e ∈ twice.walk, e.Simple := by
  intro e he
  simp only [twice, themeSection, classSection, Element.walk, Element.walkAll, List.append_nil,
    List.cons_append, List.nil_append, List.mem_cons, List.not_mem_nil, or_false] at he
  obtain rfl | rfl | rfl | rfl | rfl | rfl | rfl | rfl | rfl :=
    he <;> exact ⟨by decide, by decide, by decide⟩

/-- An element with a name and nothing else. -/
def nameOnly (tag name : String) : Element := ⟨tag, [⟨"name", name, s₁⟩], [], s₂⟩

theorem ofElement_theme_nameOnly :
    Theme.ofElement (nameOnly s₁ s₂ "theme" "day") = .ok { name := "day", span := s₂ } := by rfl

theorem ofElement_class_nameOnly :
    StyleClass.ofElement (nameOnly s₁ s₂ "class" "card") = .ok { name := "card", span := s₂ } := by
  let e := nameOnly s₁ s₂ "class" "card"
  have hget : e.get? "name" = some "card" := by rfl
  have hname : String.ofList (trim "card".toList) = "card" := by rfl
  have hfull : "card".isEmpty = false := by rfl
  have hattributes : e.attributes.foldlM (StyleClass.addAttribute e) {} = .ok {} := by rfl
  rw [StyleClass.ofElement]
  simp only [e] at hget hattributes
  simp only [hget, Option.getD_some, hname, hfull, hattributes]
  rfl

/-- A section with one definition. -/
def sectionOf (tag : String) (e : Element) : Element := ⟨tag, [], [e], s⟩

theorem readThemes_sectionOf : readThemes (sectionOf s "themes" (nameOnly s₁ s₂ "theme" "day")) =
    .ok [("day", { name := "day", span := s₂ })] := by
  have h : ThemeMap.addChild [] (nameOnly s₁ s₂ "theme" "day") =
      .ok [("day", { name := "day", span := s₂ })] := by
    rw [ThemeMap.addChild, ofElement_theme_nameOnly]
    rfl
  rw [readThemes, ThemeMap.ofSection, sectionOf]
  simp only [List.foldlM_cons, h]
  rfl

theorem ofSection_sectionOf :
    ClassMap.ofSection (sectionOf s "styles" (nameOnly s₁ s₂ "class" "card")) =
    .ok [("card", { name := "card", span := s₂ })] := by
  have h : ClassMap.addChild [] (nameOnly s₁ s₂ "class" "card") =
      .ok [("card", { name := "card", span := s₂ })] := by
    rw [ClassMap.addChild, ofElement_class_nameOnly]
    rfl
  rw [ClassMap.ofSection, sectionOf]
  simp only [List.foldlM_cons, h]
  rfl

theorem gathered_twice : ∃ t c, Gathered [] source (twice.placed source 0).children {}
    { themes := [("day", { name := "day", span := t })],
      classes := [("card", { name := "card", span := c })] }
    [] [] := by
  obtain ⟨n₁, t₁, s₁, n₂, t₂, s₂, n₃, t₃, s₃, n₄, t₄, s₄, hplaced⟩ :
      ∃ n₁ t₁ s₁ n₂ t₂ s₂ n₃ t₃ s₃ n₄ t₄ s₄, (twice.placed source 0).children = [
        sectionOf s₁ "themes" (nameOnly n₁ t₁ "theme" "day"),
        sectionOf s₂ "themes" (nameOnly n₂ t₂ "theme" "day"),
        sectionOf s₃ "styles" (nameOnly n₃ t₃ "class" "card"),
        sectionOf s₄ "styles" (nameOnly n₄ t₄ "class" "card")] :=
    ⟨_, _, _, _, _, _, _, _, _, _, _, _, rfl⟩
  refine ⟨t₂, t₄, ?_⟩
  rw [hplaced]
  refine ⟨?_, ?_, rfl, rfl, rfl⟩
  · change [_, _].foldlM putThemes _ = _
    simp only [List.foldlM_cons, putThemes, readThemes_sectionOf]
    rfl
  · change [_, _].foldlM putClasses _ = _
    simp only [List.foldlM_cons, putClasses, ofSection_sectionOf]
    rfl

theorem read_twice : ∃ d, read [] (encodeUtf8 twice.write) = (.ok d, []) ∧ d.themes.keys = ["day"] ∧
    d.classes.keys = ["card"] := by
  let root := twice.placed ⟨encodeUtf8 twice.write⟩ 0
  obtain ⟨t, c, hgathered⟩ := gathered_twice ⟨encodeUtf8 twice.write⟩
  have htag : root.tag = documentTag := by rfl
  have hversion : declaredVersion root = .ok .first := by rfl
  let d : Document :=
    { root := { kind := .builtin .column, span := root.span }
      themes := [("day", { name := "day", span := t })]
      classes := [("card", { name := "card", span := c })] }
  refine ⟨d, ?_, rfl, rfl⟩
  rw [read, Element.read_write simple_twice]
  dsimp only
  rw [ofMarkup, if_pos htag]
  exact ofSections_eq_ok_iff.mpr ⟨_, hgathered, hversion, rfl, rfl, rfl, rfl, rfl, rfl⟩

/-- Of what is written twice, one is kept. -/
theorem definitions_of_read_twice : ∃ m d, Markup.read (encodeUtf8 twice.write) = .ok m ∧
    read [] (encodeUtf8 twice.write) = (.ok d, []) ∧
    ((themeElements m.root).length = 2 ∧ d.themes.length = 1) ∧
    ((classElements m.root).length = 2 ∧ d.classes.length = 1) ∧
    (∃ ts, (themeElements m.root).mapM Theme.ofElement = .ok ts ∧ ¬ (ts.map Theme.name).Nodup) ∧
    ∃ cs, (classElements m.root).mapM StyleClass.ofElement = .ok cs ∧
      ¬ (cs.map StyleClass.name).Nodup := by
  obtain ⟨d, hread, hthemes, hclasses⟩ := read_twice
  obtain ⟨m, hm, h⟩ := definitions_of_read hread
  have hroot := Except.ok.inj (hm.symm.trans (Element.read_write simple_twice))
  have htag : m.root.tag = documentTag := by rw [hroot]; rfl
  have htwo : (themeElements m.root).length = 2 := by rw [hroot]; rfl
  have htwo' : (classElements m.root).length = 2 := by rw [hroot]; rfl
  have hone : d.themes.length = 1 :=
    (List.length_map Prod.fst).symm.trans (congrArg List.length hthemes)
  have hone' : d.classes.length = 1 :=
    (List.length_map Prod.fst).symm.trans (congrArg List.length hclasses)
  obtain ⟨⟨ts, hts, -, hcount⟩, ⟨cs, hcs, -, hcount'⟩, -⟩ := h htag
  refine ⟨m, d, hm, hread, ⟨htwo, hone⟩, ⟨htwo', hone'⟩, ⟨ts, hts, fun hdistinct => ?_⟩, cs,
    hcs, fun hdistinct => ?_⟩
  · have := hcount.mpr hdistinct
    omega
  · have := hcount'.mpr hdistinct
    omega

end Twice

end Document
end UiMarkup
