import UiMarkup.Lint.WidgetRules
import UiMarkup.Proofs.Markup.Writing
import UiMarkup.Proofs.Widget.Routing

/-!
Attributes for a breakpoint. As attributes of the widget itself they would make up a layout and a
style together; the rule asks of each one whether it does so alone. The two agree but for a
position, which is never enough alone, and for bounds that are crossed, which are two attributes.
-/

namespace UiMarkup

theorem AttributeMap.static_mem_iff {m : AttributeMap} (distinct : m.keys.Nodup)
    {name text : String} :
    (name, AttributeValue.static text) ∈ m ↔ m.statics.get? name = some text :=
  ⟨fun h => get?_statics (OrderedMap.get?_of_mem distinct h),
    fun h => mem_of_mem_statics (OrderedMap.mem_of_get?_eq_some h)⟩

/-! ### One attribute and several -/

open Value (Meets)

theorem Value.meets_single_of_not_mem {name text : String} {demands : List Demand}
    (h : ∀ d ∈ demands, d.1 ≠ name) : Meets [(name, text)] demands := by
  intro d hd text' found
  simp [OrderedMap.get?, (h d hd).symm] at found

namespace Layout

theorem fst_mem_attributeNames : ∀ d ∈ demands, d.1 ∈ attributeNames := by
  simp [demands, Value.demand, attributeNames]

theorem not_mem_styleNames : ∀ name ∈ attributeNames, name ∉ Style.attributeNames := by
  decide

end Layout

namespace Widget

/-- The attributes make up a layout and a style, in the way of those of the widget itself. -/
def Accepts (w : Widget) (attributes : AttributeMap) : Prop :=
  ∃ look, readLook w.kind attributes w.span = .ok look

/-- The attributes make up a style, and all that is wrong with the layout is that the bounds
of an axis are crossed. -/
structure OnlyCrosses (w : Widget) (attributes : AttributeMap) : Prop where
  layout : ∃ (l : Layout) (axis : Axis) (least most : Float),
    l.GivenBy attributes.statics (w.kind = .builtin .tooltip) ∧ l.Sound ∧
      l.Crossed axis least most ∧
      readLook w.kind attributes w.span =
        .error (.parse ⟨.value (.layout (.minAboveMax axis least most)), w.span⟩)
  style : ∃ style, Style.ofAttributes attributes.statics = .ok style

variable {w : Widget} {attributes : AttributeMap}

theorem accepts_iff : w.Accepts attributes ↔
    (∃ layout, Layout.ofAttributes attributes.statics (w.kind = .builtin .tooltip) = .ok layout) ∧
      ∃ style, Style.ofAttributes attributes.statics = .ok style := by
  rw [Accepts, readLook]
  cases Layout.ofAttributes attributes.statics (w.kind = .builtin .tooltip) with
  | error fault => simp [bind, Except.bind, Except.mapError]
  | ok layout =>
      cases Style.ofAttributes attributes.statics <;>
        simp [bind, Except.bind, Except.mapError, pure, Except.pure]

theorem OnlyCrosses.not_accepts (h : w.OnlyCrosses attributes) : ¬ w.Accepts attributes := by
  rintro ⟨look, haccepts⟩
  obtain ⟨_, _, _, _, -, -, -, herror⟩ := h.layout
  cases haccepts.symm.trans herror

/-- Without a position, what the attributes are asked for one by one leaves only
crossed bounds to be wrong. -/
theorem accepts_or_onlyCrosses_iff (unplaced : attributes.statics.get? "position" = none) :
    w.Accepts attributes ∨ w.OnlyCrosses attributes ↔
      Meets attributes.statics Layout.demands ∧ Meets attributes.statics Style.demands := by
  rw [accepts_iff, ← Style.exists_ofAttributes_iff]
  constructor
  · rintro (⟨⟨layout, hlayout⟩, hstyle⟩ | ⟨⟨l, _, _, _, hgiven, hsound, -, -⟩, hstyle⟩)
    · exact ⟨Layout.meets_of_ofAttributes hlayout, hstyle⟩
    · exact ⟨hgiven.meets hsound, hstyle⟩
  · rintro ⟨hmeets, hstyle⟩
    obtain hlayout | ⟨l, axis, least, most, hgiven, hsound, hcrossed, herror⟩ :=
      Layout.ofAttributes_of_meets (w.kind = .builtin .tooltip) unplaced hmeets
    · exact .inl ⟨hlayout, hstyle⟩
    · refine .inr ⟨⟨l, axis, least, most, hgiven, hsound, hcrossed, ?_⟩, hstyle⟩
      rw [readLook, herror]
      rfl

end Widget

namespace Lint

/-- The message says that a value is invalid. -/
def Finding.IsInvalidValue (f : Finding) : Prop := "Invalid value for '".toList <+: f.message.toList

namespace ResponsiveAttributeRule

/-! ### The rule -/

/-- The findings about the attributes for a breakpoint. -/
def breakpointFindings (c : Context) (w : Widget) (p : Breakpoint × AttributeMap) : List Finding :=
  (p.2.mergeSort fun p q => p.1 ≤ q.1).filterMap (breakpointFinding? c w p.1)

/-- The rule finds an invalid value among the attributes for a breakpoint. -/
def Reports (c : Context) (w : Widget) (p : Breakpoint × AttributeMap) : Prop :=
  ∃ f ∈ breakpointFindings c w p, f.IsInvalidValue

theorem valueProblem?_eq_none_iff {name text : String} (unplaced : name ≠ "position") :
    valueProblem? name text = none ↔
      Meets [(name, text)] Layout.demands ∧ Meets [(name, text)] Style.demands := by
  by_cases hlayout : name ∈ Layout.attributeNames
  · have hstyle : Meets [(name, text)] Style.demands :=
      Value.meets_single_of_not_mem fun d hd heq =>
        Layout.not_mem_styleNames name hlayout (heq ▸ Style.fst_mem_attributeNames d hd)
    rw [and_iff_left hstyle, ← Layout.exists_ofAttributes_single_iff unplaced, valueProblem?,
      if_pos (List.contains_iff_mem.mpr hlayout)]
    cases Layout.ofAttributes [(name, text)] false <;> simp
  · have hmeets : Meets [(name, text)] Layout.demands :=
      Value.meets_single_of_not_mem fun d hd heq =>
        hlayout (heq ▸ Layout.fst_mem_attributeNames d hd)
    rw [and_iff_right hmeets, ← Style.exists_ofAttributes_iff, valueProblem?,
      if_neg (mt List.contains_iff_mem.mp hlayout)]
    cases Style.ofAttributes [(name, text)] <;> simp

theorem valueProblem?_position (text : String) : valueProblem? "position" text ≠ none := by
  rw [valueProblem?, if_pos (by decide)]
  cases h : Layout.ofAttributes [("position", text)] false with
  | ok o => exact absurd h (Layout.ofAttributes_position text o)
  | error fault => simp

theorem mem_knownNames_of_valueProblem? {name text : String} (h : valueProblem? name text ≠ none) :
    name ∈ knownNames := by
  by_contra unknown
  obtain ⟨hlayout, hstyle⟩ := not_or.mp (mt List.mem_append.mpr unknown)
  have unplaced : name ≠ "position" := by
    rintro rfl
    exact hlayout (by decide)
  refine h ((valueProblem?_eq_none_iff unplaced).mpr ⟨?_, ?_⟩)
  · exact Value.meets_single_of_not_mem fun d hd heq =>
      hlayout (heq ▸ Layout.fst_mem_attributeNames d hd)
  · exact Value.meets_single_of_not_mem fun d hd heq =>
      hstyle (heq ▸ Style.fst_mem_attributeNames d hd)

variable {c : Context} {w : Widget} {p : Breakpoint × AttributeMap}

theorem exists_breakpointFinding?_iff {b : Breakpoint} {name : String} {v : AttributeValue} :
    (∃ f, breakpointFinding? c w b (name, v) = some f ∧ f.IsInvalidValue) ↔
      ∃ text, v = .static text ∧ valueProblem? name text ≠ none := by
  rw [breakpointFinding?]
  by_cases known : name ∈ knownNames
  · cases v with
    | binding _ | interpolated _ => simp [known, AttributeValue.static?]
    | static text =>
        cases hproblem : valueProblem? name text with
        | none => simp [known, AttributeValue.static?, hproblem]
        | some fault =>
            simp [known, AttributeValue.static?, hproblem, Finding.IsInvalidValue,
              Context.error, Context.finding]
  · have hquiet (text : String) : valueProblem? name text = none := by
      by_contra hproblem
      exact known (mem_knownNames_of_valueProblem? hproblem)
    simp [known, hquiet, Finding.IsInvalidValue, Context.error, Context.finding]

theorem reports_iff : Reports c w p ↔ ∃ name text, (name, AttributeValue.static text) ∈ p.2 ∧
    valueProblem? name text ≠ none := by
  constructor
  · rintro ⟨f, hf, hinvalid⟩
    obtain ⟨⟨name, v⟩, hmem, hfinding⟩ := List.mem_filterMap.mp hf
    obtain ⟨text, rfl, hproblem⟩ := exists_breakpointFinding?_iff.mp ⟨f, hfinding, hinvalid⟩
    exact ⟨name, text, List.mem_mergeSort.mp hmem, hproblem⟩
  · rintro ⟨name, text, hmem, hproblem⟩
    obtain ⟨f, hfinding, hinvalid⟩ := exists_breakpointFinding?_iff.mpr ⟨text, rfl, hproblem⟩
    exact ⟨f, List.mem_filterMap.mpr ⟨_, List.mem_mergeSort.mpr hmem, hfinding⟩, hinvalid⟩

theorem not_reports_iff (distinct : p.2.keys.Nodup) : ¬ Reports c w p ↔
    p.2.statics.get? "position" = none ∧ (w.Accepts p.2 ∨ w.OnlyCrosses p.2) := by
  have hquiet : ¬ Reports c w p ↔ ∀ name text, p.2.statics.get? name = some text →
      valueProblem? name text = none := by
    simp only [reports_iff, AttributeMap.static_mem_iff distinct]
    push Not
    rfl
  have hunplaced (h : ¬ Reports c w p) : p.2.statics.get? "position" = none := by
    by_contra hplaced
    obtain ⟨text, found⟩ := Option.ne_none_iff_exists'.mp hplaced
    exact valueProblem?_position text (hquiet.mp h _ _ found)
  rw [← and_iff_right_of_imp hunplaced]
  refine and_congr_right fun unplaced => ?_
  have other {name text : String} (found : p.2.statics.get? name = some text) :
      name ≠ "position" := by
    rintro rfl
    cases unplaced.symm.trans found
  rw [hquiet, Widget.accepts_or_onlyCrosses_iff unplaced, Value.meets_iff_single,
    Value.meets_iff_single]
  simp only [← forall_and]
  exact forall₃_congr fun name text found => valueProblem?_eq_none_iff (other found)

theorem not_isInvalidValue_of_stateFinding? {e : Element} {name : String} {f : Finding}
    (h : stateFinding? c e name = some f) : ¬ f.IsInvalidValue := by
  rw [stateFinding?] at h
  split at h
  · cases h
  · split at h
    · obtain rfl := Option.some.inj h
      simp [Finding.IsInvalidValue, Context.error, Context.finding]
    · split at h
      · obtain rfl := Option.some.inj h
        simp [Finding.IsInvalidValue, Context.finding]
      · split at h
        · obtain rfl := Option.some.inj h
          simp [Finding.IsInvalidValue, Context.error, Context.finding]
        · cases h

/-- The rule finds no invalid value under a breakpoint exactly when no position is among the
attributes and they make up a layout and a style, or would if no bounds were crossed. -/
theorem reports_of_read {custom : List String} {bytes : List UInt8} {notices : List Notice}
    (h : Document.read custom bytes = (.ok c.document, notices)) :
    ∃ findings, rule.check c = .ok findings ∧
      (∀ f ∈ findings, f.IsInvalidValue → ∃ w ∈ c.document.walk, ∃ p ∈ w.breakpoints,
        f ∈ breakpointFindings c w p) ∧
      ∀ w ∈ c.document.walk, ∀ p ∈ w.breakpoints, (∀ f ∈ breakpointFindings c w p, f ∈ findings) ∧
        (¬ Reports c w p ↔ p.2.statics.get? "position" = none ∧
          (w.Accepts p.2 ∨ w.OnlyCrosses p.2)) := by
  refine ⟨_, rfl, fun f hf hinvalid => ?_, fun w hw p hp => ⟨fun f hf => ?_, not_reports_iff ?_⟩⟩
  · obtain hf | hf := List.mem_append.mp hf
    · obtain ⟨w, hw, hf⟩ := List.mem_flatMap.mp hf
      obtain ⟨p, hp, hf⟩ := List.mem_flatMap.mp hf
      exact ⟨w, hw, p, hp, hf⟩
    · obtain ⟨e, -, hf⟩ := List.mem_flatMap.mp hf
      obtain ⟨a, -, hf⟩ := List.mem_filterMap.mp hf
      split at hf
      · exact absurd hinvalid (not_isInvalidValue_of_stateFinding? hf)
      · cases hf
  · exact List.mem_append_left _ (List.mem_flatMap.mpr ⟨w, hw, List.mem_flatMap.mpr ⟨p, hp, hf⟩⟩)
  · obtain ⟨m, -, hreturns⟩ := Document.exists_markup_of_read h
    obtain ⟨e, -, hmade⟩ | rfl := Document.exists_madeOf_of_ofMarkup hreturns w hw
    · obtain ⟨routed, hrouted, hassembled⟩ := hmade.assembled
      exact Routed.nodup_keys_of_ofAttributes hrouted p (hassembled.breakpoints ▸ hp)
    · cases hp

/-! ### Columns with attributes for a breakpoint -/

section Crossed

open Text

variable (source : SourceMap) (s s₁ s₂ : Span)

/-- A column that is to be at least twice as wide as it may be. -/
def crossed : Element where
  tag := "column"
  attributes := [⟨"mobile-min_width", "100", .origin⟩, ⟨"mobile-max_width", "50", .origin⟩]
  children := []
  span := .origin

def crossedElement : Element :=
  ⟨"column", [⟨"mobile-min_width", "100", s₁⟩, ⟨"mobile-max_width", "50", s₂⟩], [], s⟩

def crossedBounds : AttributeMap := [("min_width", .static "100"), ("max_width", .static "50")]

def columnWidget (attributes : AttributeMap) : Widget where
  kind := .builtin .column
  breakpoints := [(.mobile, attributes)]
  span := s

theorem simple_crossed : ∀ d ∈ crossed.walk, d.Simple := by
  intro d hd
  obtain rfl := List.mem_singleton.mp hd
  exact ⟨by decide, by decide, by decide⟩

theorem ofAttributes_crossed : Routed.ofAttributes source (crossedElement s s₁ s₂).attributes =
    .ok { breakpoints := [(.mobile, crossedBounds)] } := by
  have hmin : Route.ofAttribute source ⟨"mobile-min_width", "100", s₁⟩ =
      .ok (.breakpoint .mobile "min_width" (.static "100")) :=
    (Route.ofAttribute_eq (by decide) rfl (by decide) s₁).trans rfl
  have hmax : Route.ofAttribute source ⟨"mobile-max_width", "50", s₂⟩ =
      .ok (.breakpoint .mobile "max_width" (.static "50")) :=
    (Route.ofAttribute_eq (by decide) rfl (by decide) s₂).trans rfl
  rw [Routed.ofAttributes, crossedElement]
  simp only [List.mapM_cons, hmin, hmax]
  rfl

theorem build_crossed : (Widget.build [] source (crossedElement s s₁ s₂)).run [] =
    (.ok (columnWidget s crossedBounds), []) := by
  refine (Widget.run_bind (a := Kind.builtin .column) rfl).trans ?_
  refine (Widget.run_bind (congrArg (·, []) (ofAttributes_crossed source s s₁ s₂))).trans ?_
  refine (Widget.run_bind (a := []) rfl).trans ?_
  refine (Widget.run_bind rfl).trans ?_
  refine (Widget.run_bind (a := ((none, none) : Option Layout × Option Style)) rfl).trans ?_
  refine (Widget.run_bind (a := []) rfl).trans ?_
  refine (Widget.run_bind rfl).trans ?_
  refine (Widget.run_bind rfl).trans ?_
  rfl

theorem read_crossed : ∃ s, Document.read [] (encodeUtf8 crossed.write) =
    (.ok { root := columnWidget s crossedBounds }, []) := by
  obtain ⟨s, s₁, s₂, hplaced⟩ : ∃ s s₁ s₂, crossed.placed ⟨encodeUtf8 crossed.write⟩ 0 =
      crossedElement s s₁ s₂ :=
    ⟨_, _, _, rfl⟩
  refine ⟨s, ?_⟩
  rw [Document.read, Element.read_write simple_crossed, hplaced]
  exact (Widget.run_bind (build_crossed _ s s₁ s₂)).trans rfl

theorem onlyCrosses_crossed : (columnWidget s crossedBounds).OnlyCrosses crossedBounds where
  layout := by
    let l : Layout := { minWidth := some 100.0, maxWidth := some 50.0 }
    have hgiven : l.GivenBy crossedBounds.statics false := Layout.readFields_eq_ok_iff.mp rfl
    have hcrossed : l.Crossed .width 100.0 50.0 := ⟨rfl, by decide⟩
    exact ⟨l, .width, 100.0, 50.0, hgiven,
      ⟨rfl, rfl, rfl, rfl, fun h => absurd h Bool.false_ne_true⟩, hcrossed, rfl⟩
  style := ⟨none, rfl⟩

/-- Bounds that are crossed are never reported. -/
theorem reports_of_read_crossed :
    ∃ d w, Document.read [] (encodeUtf8 crossed.write) = (.ok d, []) ∧ w ∈ d.walk ∧
    w.breakpoints = [(.mobile, crossedBounds)] ∧ ¬ w.Accepts crossedBounds ∧
    ∀ text m settings, ¬ Reports ⟨text, d, m, settings⟩ w (.mobile, crossedBounds) := by
  obtain ⟨s, hread⟩ := read_crossed
  have honly := onlyCrosses_crossed s
  refine ⟨_, _, hread, List.mem_cons_self, rfl, honly.not_accepts, fun text m settings => ?_⟩
  let c : Context := ⟨text, { root := columnWidget s crossedBounds }, m, settings⟩
  obtain ⟨findings, -, -, hall⟩ := reports_of_read (c := c) hread
  obtain ⟨-, hreports⟩ := hall _ List.mem_cons_self _ List.mem_cons_self
  exact hreports.mpr ⟨rfl, .inr honly⟩

def placement : AttributeMap := [("position", .static "absolute"), ("top", .static "5")]

/-- A position is reported, also where an offset goes with it. -/
theorem reports_placement (c : Context) : (columnWidget s placement).Accepts placement ∧
    Reports c (columnWidget s placement) (.mobile, placement) := by
  refine ⟨⟨(some { position := some .absolute, top := some 5.0 }, none), rfl⟩, ?_⟩
  exact reports_iff.mpr ⟨"position", "absolute", List.mem_cons_self,
    valueProblem?_position "absolute"⟩

end Crossed

end ResponsiveAttributeRule
end Lint
end UiMarkup
