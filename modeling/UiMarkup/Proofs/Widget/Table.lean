import UiMarkup.Proofs.Document.Provenance
import UiMarkup.Proofs.Number.Margins
import UiMarkup.Proofs.Widget.Renaming
import UiMarkup.Proofs.Widget.Routing

/-!
Every widget of a document, however deep, has the attributes and children that its kind asks for,
under their new names. A document with sections declares a version that has all its widgets.
-/

namespace UiMarkup

/-! ### What a kind asks for -/

namespace Requirements

variable {r : Requirements} {k : WidgetKind} {attributes : AttributeMap} {a : Asked}

theorem attributeProblem?_eq_none_iff : r.attributeProblem? k attributes = none ↔
    (∀ a ∈ r.nonEmpty, emptyProblem? k attributes a = none) ∧
    (∀ a ∈ r.required, missingProblem? k attributes a = none) ∧
    (∀ range ∈ r.ranges, rangeProblem? k attributes range = none) ∧
    ∀ a ∈ r.bindings, bindingProblem? k attributes a = none := by
  simp only [attributeProblem?, Option.or_eq_none_iff, List.findSome?_eq_none_iff]

theorem emptyProblem?_eq_none (h : emptyProblem? k attributes a = none) :
    ∃ text, attributes.get? a.name = some (.static text) ∧ ∃ c ∈ text.toList,
      Text.isBlank c = false := by
  rw [emptyProblem?] at h
  split at h
  · rename_i text htext
    refine ⟨text, htext, ?_⟩
    by_contra hblank
    push Not at hblank
    have htrim : Text.trim text.toList = [] := Text.trim_of_forall fun c hc => by
      simpa using hblank c hc
    simp [htrim] at h
  · cases h

theorem missingProblem?_eq_none (h : missingProblem? k attributes a = none) :
    attributes.has a.name = true := by
  rw [missingProblem?] at h
  split at h
  · assumption
  · cases h

theorem rangeProblem?_eq_none {range : Range} (h : rangeProblem? k attributes range = none)
    {text : String} {x : Float} (htext : attributes.get? range.name = some (.static text))
    (hx : Number.readFloat? text.toList = some x) :
    Float.ofInt range.least ≤ x ∧ x ≤ Float.ofInt range.most := by
  rw [rangeProblem?, htext] at h
  dsimp only at h
  rw [Number.readFloat?_trim hx] at h
  dsimp only at h
  split at h
  · rename_i hholds
    simpa [Range.holds] using hholds
  · cases h

theorem bindingProblem?_eq_none (h : bindingProblem? k attributes a = none)
    (hhas : attributes.has a.name = true) : ∃ b, attributes.get? a.name = some (.binding b) := by
  obtain ⟨value, hvalue⟩ := Option.isSome_iff_exists.mp hhas
  rw [bindingProblem?, hvalue] at h
  dsimp only at h
  cases value with
  | binding b => exact ⟨b, hvalue⟩
  | static _ | interpolated _ => cases h

end Requirements

/-! ### The table -/

namespace Widget

/-- A number that is written in an attribute lies between two bounds. -/
def NumberWithin (w : Widget) (name : String) (least most : Int) : Prop :=
  ∀ text x, w.attributes.get? name = some (.static text) → Number.readFloat? text.toList = some x →
    Float.ofInt least ≤ x ∧ x ≤ Float.ofInt most

/-- What the widgets of a kind have. -/
def MeetsKind (w : Widget) : WidgetKind → Prop
  | .tooltip => w.children.length = 1 ∧ w.attributes.has "message"
  | .canvas =>
    w.children = [] ∧ w.attributes.has "width" ∧ w.attributes.has "height" ∧
      (∃ b, w.attributes.get? "program" = some (.binding b)) ∧
      w.NumberWithin "width" 50 4000 ∧ w.NumberWithin "height" 50 4000
  | .grid => w.attributes.has "columns" ∧ w.NumberWithin "columns" 1 20
  | .loop => w.attributes.has "each" ∧ w.attributes.has "in"
  | .pickList | .combobox =>
    ∃ text, w.attributes.get? "options" = some (.static text) ∧ ∃ c ∈ text.toList,
      Text.isBlank c = false
  | _ => True

structure MeetsTable (w : Widget) : Prop where
  ofKind : ∀ k, w.kind = .builtin k → w.MeetsKind k
  renamed : ∀ k, w.kind = .builtin k → ∀ r ∈ renamings, k ∈ r.kinds →
      w.attributes.has r.oldName = false
  classes : w.classes = match w.attributes.get? "class" with
    | some (.static text) => (Text.words text.toList).map String.ofList
    | _ => []
  theme : w.theme = w.attributes.get? "theme"

theorem refuseIf_eq_ok {problem : Option ParseProblem} {span : Span}
    (h : refuseIf problem span = .ok ()) : problem = none := by
  cases problem with
  | none => rfl
  | some p => cases h

theorem length_children_of_checkChildren {k : WidgetKind} {count expected : Nat} {span : Span}
    (h : checkChildren (.builtin k) count span = .ok ())
    (hk : (Requirements.ofKind k).children = some expected) : count = expected := by
  have hnone := refuseIf_eq_ok h
  rw [Requirements.childrenProblem?, hk] at hnone
  dsimp only at hnone
  split at hnone
  · assumption
  · cases hnone

theorem meetsKind_of_assembledFrom {w : Widget} {routed : Routed} (h : w.AssembledFrom routed)
    {k : WidgetKind} (hk : w.kind = .builtin k) : w.MeetsKind k := by
  have hchildren {expected : Nat} (he : (Requirements.ofKind k).children = some expected) :
      w.children.length = expected := length_children_of_checkChildren (hk ▸ h.children) he
  have hnone := refuseIf_eq_ok (hk ▸ h.checked)
  obtain ⟨hnonEmpty, hrequired, hranges, hbindings⟩ :=
    Requirements.attributeProblem?_eq_none_iff.mp hnone
  have hhas {a : Asked} (ha : a ∈ (Requirements.ofKind k).required) :
      w.attributes.has a.name = true :=
    Requirements.missingProblem?_eq_none (hrequired a ha)
  have hwithin {range : Range} (hr : range ∈ (Requirements.ofKind k).ranges) :
      w.NumberWithin range.name range.least range.most :=
    fun _ _ htext hx => Requirements.rangeProblem?_eq_none (hranges range hr) htext hx
  cases k with
  | tooltip => exact ⟨hchildren rfl, hhas (.head _)⟩
  | canvas =>
      have hprogram : w.attributes.has "program" = true := hhas (.tail _ (.tail _ (.head _)))
      refine ⟨List.length_eq_zero_iff.mp (hchildren rfl), hhas (.head _), hhas (.tail _ (.head _)),
        ?_, hwithin (.head _), hwithin (.tail _ (.head _))⟩
      exact Requirements.bindingProblem?_eq_none (hbindings _ (.head _)) hprogram
  | grid => exact ⟨hhas (.head _), hwithin (.head _)⟩
  | loop => exact ⟨hhas (.head _), hhas (.tail _ (.head _))⟩
  | pickList | combobox => exact Requirements.emptyProblem?_eq_none (hnonEmpty _ (.head _))
  | _ => exact trivial

theorem oldName_ne_newName : ∀ r ∈ renamings, ∀ s ∈ renamings, r.oldName ≠ s.newName := by decide

theorem meetsTable_of_assembledFrom {w : Widget} {routed : Routed} (h : w.AssembledFrom routed) :
    w.MeetsTable where
  ofKind k hk := meetsKind_of_assembledFrom h hk
  renamed k hk r hr hmem := by
    rw [h.attributes, hk, OrderedMap.has, Renaming.get?_applyAll_oldName oldName_ne_newName hr hmem]
    rfl
  classes := by
    rw [h.classes, h.attributes, Renaming.get?_applyAll_of_forall (by decide)]
    rfl
  theme := by
    rw [h.theme, h.attributes, Renaming.get?_applyAll_of_forall (by decide)]

theorem meetsTable_emptyRoot (root : Element) : (Document.emptyRoot root).MeetsTable where
  ofKind := by
    rintro _ ⟨⟩
    exact trivial
  renamed := by
    intro _ _ _ _ _
    rfl
  classes := rfl
  theme := rfl

end Widget

theorem Document.meetsTable_of_read {custom : List String} {bytes : List UInt8} {d : Document}
    {notices : List Notice} (h : read custom bytes = (.ok d, notices)) :
    (∀ w ∈ d.walk, w.MeetsTable) ∧
    ∀ m, Markup.read bytes = .ok m → m.root.tag = documentTag →
      d.version.notAfter ⟨1, 1⟩ ∧ (∀ w ∈ d.walk, w.kind.since.newerThan d.version = false) ∧
      d.versionGaps = [] := by
  obtain ⟨m, hm, hreturns⟩ := exists_markup_of_read h
  refine ⟨fun w hw => ?_, fun m' hm' htag => ?_⟩
  · obtain ⟨e, -, hmade⟩ | rfl := exists_madeOf_of_ofMarkup hreturns w hw
    · obtain ⟨routed, -, hassembled⟩ := hmade.assembled
      exact Widget.meetsTable_of_assembledFrom hassembled
    · exact Widget.meetsTable_emptyRoot m.root
  · obtain rfl : m = m' := Except.ok.inj (hm.symm.trans hm')
    have hversion := withinVersion_of_ofMarkup hreturns htag
    refine ⟨hversion.supported, fun w hw => ?_, hversion.gaps⟩
    have hgap := List.filterMap_eq_nil_iff.mp hversion.gaps w hw
    by_contra hnew
    simp [hnew] at hgap

/-! ### A grid with an image -/

/-- `<vellum version="1.1"><grid columns="2"><image path="p"/></grid></vellum>`. -/
def gallery : List UInt8 :=
  "<vellum version=\"1.1\"><grid columns=\"2\"><image path=\"p\"/></grid></vellum>".toUTF8.toList

def galleryImage : Element := ⟨"image", [⟨"path", "p", ⟨53, 54, 1, 54⟩⟩], [], ⟨40, 64, 1, 41⟩⟩

def galleryGrid : Element :=
  ⟨"grid", [⟨"columns", "2", ⟨37, 38, 1, 38⟩⟩], [galleryImage], ⟨22, 64, 1, 23⟩⟩

def galleryMarkup : Markup where
  root := ⟨"vellum", [⟨"version", "1.1", ⟨17, 20, 1, 18⟩⟩], [galleryGrid], ⟨0, 73, 1, 1⟩⟩
  source := ⟨gallery⟩
  hasDeclaration := false

theorem read_gallery : Markup.read gallery = .ok galleryMarkup := by
  decide +kernel

def imageWidget : Widget where
  kind := .builtin .image
  attributes := [("src", .static "p")]
  span := ⟨40, 64, 1, 41⟩

def gridWidget : Widget where
  kind := .builtin .grid
  attributes := [("columns", .static "2")]
  span := ⟨22, 64, 1, 23⟩
  children := [imageWidget]

def galleryDocument : Document where
  root := gridWidget
  version := ⟨1, 1⟩

theorem ofAttributes_galleryImage (source : SourceMap) :
    Routed.ofAttributes source galleryImage.attributes =
      .ok { attributes := [("path", .static "p")] } := by
  have hpath : Route.ofAttribute source ⟨"path", "p", ⟨53, 54, 1, 54⟩⟩ =
      .ok (.plain "path" (.static "p")) :=
    (Route.ofAttribute_eq (by decide) rfl (by decide) _).trans rfl
  rw [Routed.ofAttributes, galleryImage]
  simp only [List.mapM_cons, hpath]
  rfl

theorem build_galleryImage (source : SourceMap) : (Widget.build [] source galleryImage).run [] =
    (.ok imageWidget, [⟨.builtin .image, "path", "src"⟩]) := by
  refine (Widget.run_bind (a := Kind.builtin .image) rfl).trans ?_
  refine (Widget.run_bind (congrArg (·, []) (ofAttributes_galleryImage source))).trans ?_
  refine (Widget.run_bind (a := []) rfl).trans ?_
  refine (Widget.run_bind rfl).trans ?_
  refine (Widget.run_bind (a := ((none, none) : Option Layout × Option Style)) rfl).trans ?_
  refine (Widget.run_bind (a := []) rfl).trans ?_
  refine (Widget.run_bind rfl).trans ?_
  refine (Widget.run_bind rfl).trans ?_
  rfl

theorem checkAttributes_columns (span : Span) :
    Widget.checkAttributes (.builtin .grid) [("columns", .static "2")] span = .ok () := by
  rfl

theorem assemble_galleryGrid (notices : List Notice) :
    (Widget.assemble (.builtin .grid) { attributes := [("columns", .static "2")] } [imageWidget]
      ⟨22, 64, 1, 23⟩).run
      notices = (.ok gridWidget, notices) := by
  refine (Widget.run_bind rfl).trans ?_
  refine (Widget.run_bind (a := ((none, none) : Option Layout × Option Style)) rfl).trans ?_
  refine (Widget.run_bind rfl).trans ?_
  refine (Widget.run_bind (congrArg _ (List.append_nil notices))).trans ?_
  refine (Widget.run_bind (congrArg (·, notices) (checkAttributes_columns _))).trans ?_
  rfl

theorem ofAttributes_galleryGrid (source : SourceMap) :
    Routed.ofAttributes source galleryGrid.attributes =
      .ok { attributes := [("columns", .static "2")] } := by
  have hcolumns : Route.ofAttribute source ⟨"columns", "2", ⟨37, 38, 1, 38⟩⟩ =
      .ok (.plain "columns" (.static "2")) :=
    (Route.ofAttribute_eq (by decide) rfl (by decide) _).trans rfl
  rw [Routed.ofAttributes, galleryGrid]
  simp only [List.mapM_cons, hcolumns]
  rfl

theorem build_galleryGrid (source : SourceMap) : (Widget.build [] source galleryGrid).run [] =
    (.ok gridWidget, [⟨.builtin .image, "path", "src"⟩]) := by
  have hchildren : (Widget.buildAll [] source [galleryImage]).run [] =
      (.ok [imageWidget], [⟨.builtin .image, "path", "src"⟩]) :=
    Widget.run_bind (build_galleryImage source)
  refine (Widget.run_bind (a := Kind.builtin .grid) rfl).trans ?_
  refine (Widget.run_bind (congrArg (·, []) (ofAttributes_galleryGrid source))).trans ?_
  exact (Widget.run_bind hchildren).trans (assemble_galleryGrid _)

theorem ofMarkup_gallery : (Document.ofMarkup [] galleryMarkup).run [] =
    (.ok galleryDocument, [⟨.builtin .image, "path", "src"⟩]) := by
  have hversion : Document.declaredVersion galleryMarkup.root = .ok ⟨1, 1⟩ := by rfl
  refine (Widget.run_bind (congrArg (·, []) hversion)).trans ?_
  have hsections : (Document.addChildren [] ⟨gallery⟩ {} [galleryGrid]).run [] =
      (.ok { widget := some gridWidget }, [⟨.builtin .image, "path", "src"⟩]) :=
    Widget.run_bind (Widget.run_bind (build_galleryGrid _))
  refine (Widget.run_bind hsections).trans ?_
  rfl

theorem Document.meetsTable_of_read_gallery :
    read [] gallery = (.ok galleryDocument, [⟨.builtin .image, "path", "src"⟩]) ∧
    galleryMarkup.root.tag = documentTag ∧
    (∀ w ∈ galleryDocument.walk, w.MeetsTable) ∧ galleryDocument.versionGaps = [] := by
  have hread : read [] gallery = (.ok galleryDocument, [⟨.builtin .image, "path", "src"⟩]) := by
    rw [read, read_gallery]
    exact ofMarkup_gallery
  refine ⟨hread, rfl, (meetsTable_of_read hread).1, ?_⟩
  exact ((meetsTable_of_read hread).2 galleryMarkup read_gallery rfl).2.2

end UiMarkup
