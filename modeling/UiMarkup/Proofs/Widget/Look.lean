import UiMarkup.Proofs.Document.Ends
import UiMarkup.Proofs.Theme.ClassValidity
import UiMarkup.Widget.Builder

/-!
Which attributes make up a layout and a style. Each attribute is read and checked by itself, apart
from two things: a position asks for an offset, and a least size is compared with the largest one.
-/

namespace UiMarkup

namespace Value

/-- The name of an attribute and what its text has to be. -/
abbrev Demand := String × (List Char → Prop)

/-- The text is read as a value that passes a check. -/
def demand {α : Type} (name : String) (read : List Char → Except ValueFault α)
    (check : α → Except ValueFault Unit := fun _ => .ok ()) : Demand :=
  (name, fun text => ∃ x, read text = .ok x ∧ check x = .ok ())

/-- Every text that is given is what it has to be. -/
def Meets (values : OrderedMap String String) (demands : List Demand) : Prop :=
  ∀ d ∈ demands, ∀ text, values.get? d.1 = some text → d.2 text.toList

/-- Nothing is asked of several attributes together. -/
theorem meets_iff_single {values : OrderedMap String String} {demands : List Demand} :
    Meets values demands ↔ ∀ name text, values.get? name = some text →
      Meets [(name, text)] demands := by
  constructor
  · intro h name text found d hd text' found'
    have same : name = d.1 ∧ text = text' := by
      rw [OrderedMap.get?] at found'
      by_cases hname : name = d.1 <;> simp_all
    obtain ⟨rfl, rfl⟩ := same
    exact h d hd text found
  · intro h d hd text found
    exact h d.1 text found d hd text (by simp [OrderedMap.get?])

variable {α : Type} {values : OrderedMap String String} {name : String}
  {read : List Char → Except ValueFault α} {check : α → Except ValueFault Unit}

theorem given_eq_none (h : values.get? name = none) : given values name read = .ok none := by
  rw [given, h]

theorem isSome_of_given {text : String} (found : values.get? name = some text) {o : Option α}
    (h : given values name read = .ok o) : o.isSome := by
  rw [given, found] at h
  cases hread : read text.toList with
  | error fault => simp [hread, Except.map] at h
  | ok x =>
      simp only [hread, Except.map] at h
      rw [← Except.ok.inj h]
      rfl

theorem get?_of_given {x : α} (h : given values name read = .ok (some x)) :
    ∃ text, values.get? name = some text := by
  cases found : values.get? name with
  | none => simp [given, found] at h
  | some text => exact ⟨text, rfl⟩

theorem exists_given_iff : (∃ o, given values name read = .ok o ∧ Style.checkIf check o = .ok ()) ↔
    ∀ text, values.get? name = some text → (demand name read check).2 text.toList := by
  cases found : values.get? name with
  | none => simp [given, found, Style.checkIf]
  | some text =>
      cases hread : read text.toList with
      | error fault => simp [given, found, demand, hread, Except.map]
      | ok x => simp [given, found, demand, hread, Except.map, Style.checkIf]

theorem exists_read_iff : (∃ o, given values name read = .ok o) ↔
    ∀ text, values.get? name = some text → (demand name read).2 text.toList := by
  have unchecked (o : Option α) : Style.checkIf (fun _ => .ok ()) o = .ok () := by cases o <;> rfl
  have unasked :
      (∃ o, given values name read = .ok o ∧ Style.checkIf (fun _ => .ok ()) o = .ok ()) ↔ _ :=
    exists_given_iff
  simpa only [unchecked, and_true] using unasked

end Value

open Value

/-! ### Styles -/

namespace Border

def checkWidth (x : Float) : Except ValueFault Unit :=
  if x < 0 then .error (.negative .borderWidth x) else .ok ()

theorem check_eq_ok_iff (b : Border) :
    b.check = .ok () ↔ checkWidth b.width = .ok () ∧ b.color.check = .ok () ∧
    b.radius.check = .ok () := by
  rw [check, checkWidth]
  split
  · exact iff_of_false nofun fun h => nomatch h.1
  · simp only [andThen_eq_ok_iff, true_and]

/-- The parts that are not given pass their checks. -/
theorem exists_ofParts_iff {width : Option Float} {color : Option Color} {radius : Option Corners}
    {style : Option BorderStyle} :
    (∃ o, ofParts width color radius style = .ok o ∧ Style.checkIf check o = .ok ()) ↔
      Style.checkIf checkWidth width = .ok () ∧ Style.checkIf Color.check color = .ok () ∧
        Style.checkIf Corners.check radius = .ok () := by
  have hwidth : Style.checkIf checkWidth width = .ok () ↔ checkWidth (width.getD 0.0) = .ok () := by
    cases width with
    | none => exact iff_of_true rfl rfl
    | some _ => rfl
  have hcolor : Style.checkIf Color.check color = .ok () ↔ (color.getD .black).check = .ok () := by
    cases color with
    | none => exact iff_of_true rfl rfl
    | some _ => rfl
  have hradius : Style.checkIf Corners.check radius = .ok () ↔ (radius.getD {}).check = .ok () := by
    cases radius with
    | none => exact iff_of_true rfl rfl
    | some _ => rfl
  rw [hwidth, hcolor, hradius, ofParts]
  split
  · next hnone =>
    simp only [Bool.and_eq_true, Option.isNone_iff_eq_none] at hnone
    obtain ⟨⟨⟨rfl, rfl⟩, rfl⟩, -⟩ := hnone
    exact iff_of_true ⟨none, rfl, rfl⟩ ⟨rfl, rfl, rfl⟩
  · rw [← check_eq_ok_iff ⟨width.getD 0.0, color.getD .black, radius.getD {}, style.getD .solid⟩]
    constructor
    · rintro ⟨o, h, -⟩
      obtain ⟨_, hcheck, -⟩ := bind_eq_ok_iff.mp h
      exact hcheck
    · intro hcheck
      exact ⟨_, bind_eq_ok_iff.mpr ⟨(), hcheck, rfl⟩, hcheck⟩

end Border

namespace Style

/-- What the attributes of a style have to be. -/
def demands : List Demand := [
  demand "background" Background.parse Background.check, demand "color" Color.parse Color.check,
  demand "border_width" Border.readWidth Border.checkWidth,
  demand "border_color" Color.parse Color.check,
  demand "border_radius" Border.readRadius Corners.check, demand "border_style" Border.readStyle,
  demand "shadow" Shadow.parse, demand "opacity" readOpacity checkOpacity,
  demand "transform" Transform.parse]

/-- The fields of a style are those that its attributes give. -/
structure GivenBy (s : Style) (values : OrderedMap String String) : Prop where
  background : given values "background" Background.parse = .ok s.background
  color : given values "color" Color.parse = .ok s.color
  border : ∃ width color radius style, given values "border_width" Border.readWidth = .ok width ∧
    given values "border_color" Color.parse = .ok color ∧
    given values "border_radius" Border.readRadius = .ok radius ∧
    given values "border_style" Border.readStyle = .ok style ∧
    Border.ofParts width color radius style = .ok s.border
  shadow : given values "shadow" Shadow.parse = .ok s.shadow
  opacity : given values "opacity" readOpacity = .ok s.opacity
  transform : given values "transform" Transform.parse = .ok s.transform

theorem ofAttributes_eq_ok_iff {values : OrderedMap String String} {o : Option Style} :
    ofAttributes values = .ok o ↔ if attributeNames.any values.has then
      ∃ s, o = some s ∧ s.GivenBy values ∧ s.check = .ok () else o = none := by
  rw [ofAttributes]
  cases attributeNames.any values.has with
  | false => simp [eq_comm]
  | true =>
      simp only [Bool.not_true, Bool.false_eq_true, if_false, if_true, bind_eq_ok_iff]
      constructor
      · rintro ⟨background, hbackground, color, hcolor, width, hwidth, borderColor, hborderColor,
          radius, hradius, borderStyle, hborderStyle, border, hborder, shadow, hshadow, opacity,
          hopacity, transform, htransform, _, hcheck, h⟩
        obtain rfl := Except.ok.inj h
        exact ⟨_, rfl,
          ⟨hbackground, hcolor,
            ⟨width, borderColor, radius, borderStyle, hwidth, hborderColor, hradius,
          hborderStyle, hborder⟩, hshadow, hopacity, htransform⟩, hcheck⟩
      · rintro ⟨s, rfl, h, hcheck⟩
        obtain ⟨width, borderColor, radius, borderStyle, hwidth, hborderColor, hradius,
            hborderStyle, hborder⟩ :=
          h.border
        exact ⟨_, h.background, _, h.color, width, hwidth, borderColor, hborderColor, radius,
          hradius, borderStyle, hborderStyle, _, hborder, _, h.shadow, _, h.opacity, _,
          h.transform, (), hcheck, rfl⟩

/-- There is a style where there is an attribute of one. -/
theorem ofAttributes_ne_ok_none {values : OrderedMap String String} {name : String}
    (hname : name ∈ attributeNames) (hhas : values.has name = true) :
    ofAttributes values ≠ .ok none := by
  intro h
  rw [ofAttributes_eq_ok_iff, if_pos (List.any_eq_true.mpr ⟨name, hname, hhas⟩)] at h
  obtain ⟨s, hs, -⟩ := h
  cases hs

theorem fst_mem_attributeNames : ∀ d ∈ demands, d.1 ∈ attributeNames := by
  simp [demands, demand, attributeNames]

theorem exists_ofAttributes_iff {values : OrderedMap String String} :
    (∃ o, ofAttributes values = .ok o) ↔ Meets values demands := by
  simp only [ofAttributes_eq_ok_iff]
  cases hany : attributeNames.any values.has with
  | false =>
      refine iff_of_true ⟨none, rfl⟩ fun d hd text found => ?_
      have := List.any_eq_false.mp hany d.1 (fst_mem_attributeNames d hd)
      simp [OrderedMap.has, found] at this
  | true =>
      simp only [Meets, demands, List.forall_mem_cons, if_true]
      constructor
      · rintro ⟨_, s, rfl, h, hcheck⟩
        obtain ⟨hbackground, hcolor, hborder, hopacity⟩ := (check_eq_ok_iff s).mp hcheck
        obtain ⟨width, borderColor, radius, style, hwidth, hborderColor, hradius, hstyle, hparts⟩ :=
          h.border
        obtain ⟨hwidth', hborderColor', hradius'⟩ :=
          Border.exists_ofParts_iff.mp ⟨s.border, hparts, hborder⟩
        exact ⟨exists_given_iff.mp ⟨_, h.background, hbackground⟩,
          exists_given_iff.mp ⟨_, h.color, hcolor⟩, exists_given_iff.mp ⟨_, hwidth, hwidth'⟩,
          exists_given_iff.mp ⟨_, hborderColor, hborderColor'⟩,
          exists_given_iff.mp ⟨_, hradius, hradius'⟩, exists_read_iff.mp ⟨_, hstyle⟩,
          exists_read_iff.mp ⟨_, h.shadow⟩, exists_given_iff.mp ⟨_, h.opacity, hopacity⟩,
          exists_read_iff.mp ⟨_, h.transform⟩, by simp⟩
      · rintro ⟨hbackground, hcolor, hwidth, hborderColor, hradius, hstyle, hshadow,
          hopacity, htransform, -⟩
        obtain ⟨background, hbackground, hbackground'⟩ := exists_given_iff.mpr hbackground
        obtain ⟨color, hcolor, hcolor'⟩ := exists_given_iff.mpr hcolor
        obtain ⟨width, hwidth, hwidth'⟩ := exists_given_iff.mpr hwidth
        obtain ⟨borderColor, hborderColor, hborderColor'⟩ := exists_given_iff.mpr hborderColor
        obtain ⟨radius, hradius, hradius'⟩ := exists_given_iff.mpr hradius
        obtain ⟨style, hstyle⟩ := exists_read_iff.mpr hstyle
        obtain ⟨shadow, hshadow⟩ := exists_read_iff.mpr hshadow
        obtain ⟨opacity, hopacity, hopacity'⟩ := exists_given_iff.mpr hopacity
        obtain ⟨transform, htransform⟩ := exists_read_iff.mpr htransform
        obtain ⟨border, hparts, hborder⟩ :=
          Border.exists_ofParts_iff.mpr ⟨hwidth', hborderColor', hradius'⟩
        refine ⟨_, ⟨background, color, border, shadow, opacity, transform⟩, rfl,
          ⟨hbackground, hcolor, ?_, hshadow,
          hopacity, htransform⟩,
          (check_eq_ok_iff _).mpr ⟨hbackground', hcolor', hborder, hopacity'⟩⟩
        exact ⟨width, borderColor, radius, style, hwidth, hborderColor, hradius, hstyle, hparts⟩

end Style

/-! ### Layouts -/

namespace Layout

/-- What the attributes of a layout have to be, but for the position. -/
def demands : List Demand := [
  demand "width" Length.parse Length.check, demand "height" Length.parse Length.check,
  demand "min_width" readConstraint, demand "max_width" readConstraint,
  demand "min_height" readConstraint, demand "max_height" readConstraint,
  demand "padding" Padding.parse Padding.check,
  demand "spacing" readSpacing (fun x => checkSpacing (some x)),
  demand "align_items" Alignment.parse, demand "justify_content" Justification.parse,
  demand "align_self" Alignment.parse, demand "align_x" Alignment.parse,
  demand "align_y" Alignment.parse, demand "direction" Direction.parse,
  demand "top" (readOffset "top"), demand "right" (readOffset "right"),
  demand "bottom" (readOffset "bottom"), demand "left" (readOffset "left"),
  demand "z_index" (readWhole "z_index"), demand "align" Alignment.parse]

/-- The fields of a layout are those that its attributes give. -/
structure GivenBy (l : Layout) (values : OrderedMap String String) (skipPosition : Bool) :
    Prop where
  width : given values "width" Length.parse = .ok l.width
  height : given values "height" Length.parse = .ok l.height
  minWidth : given values "min_width" readConstraint = .ok l.minWidth
  maxWidth : given values "max_width" readConstraint = .ok l.maxWidth
  minHeight : given values "min_height" readConstraint = .ok l.minHeight
  maxHeight : given values "max_height" readConstraint = .ok l.maxHeight
  padding : given values "padding" Padding.parse = .ok l.padding
  spacing : given values "spacing" readSpacing = .ok l.spacing
  aligned : ∃ align items justify, given values "align" Alignment.parse = .ok align ∧
    given values "align_items" Alignment.parse = .ok items ∧
    given values "justify_content" Justification.parse = .ok justify ∧
    l.alignItems = align.or items ∧ l.justifyContent =
      (align.map Alignment.justification).or justify
  alignSelf : given values "align_self" Alignment.parse = .ok l.alignSelf
  alignX : given values "align_x" Alignment.parse = .ok l.alignX
  alignY : given values "align_y" Alignment.parse = .ok l.alignY
  direction : given values "direction" Direction.parse = .ok l.direction
  position : (if skipPosition then pure none else given values "position" Position.parse) =
    .ok l.position
  top : given values "top" (readOffset "top") = .ok l.top
  right : given values "right" (readOffset "right") = .ok l.right
  bottom : given values "bottom" (readOffset "bottom") = .ok l.bottom
  left : given values "left" (readOffset "left") = .ok l.left
  zIndex : given values "z_index" (readWhole "z_index") = .ok l.zIndex

theorem readFields_eq_ok_iff {values : OrderedMap String String} {skipPosition : Bool}
    {l : Layout} : readFields values skipPosition = .ok l ↔ l.GivenBy values skipPosition := by
  cases skipPosition
  all_goals
    simp only [readFields, Bool.false_eq_true, if_false, if_true, bind_eq_ok_iff]
    constructor
    · rintro ⟨width, hwidth, height, hheight, minWidth, hminWidth, maxWidth, hmaxWidth, minHeight,
        hminHeight, maxHeight, hmaxHeight, padding, hpadding, spacing, hspacing, items, hitems,
        justify, hjustify, alignSelf, hself, alignX, hx, alignY, hy, direction, hdirection,
        position, hposition, top, htop, right, hright, bottom, hbottom,
        left, hleft, zIndex, hzIndex, align, halign, h⟩
      obtain rfl := Except.ok.inj h
      exact ⟨hwidth, hheight, hminWidth, hmaxWidth, hminHeight, hmaxHeight, hpadding, hspacing,
        ⟨align, items, justify, halign, hitems, hjustify, rfl, rfl⟩, hself, hx, hy, hdirection,
        hposition, htop, hright, hbottom, hleft, hzIndex⟩
    · intro h
      obtain ⟨align, items, justify, halign, hitems, hjustify, heq, heq'⟩ := h.aligned
      refine ⟨_, h.width, _, h.height, _, h.minWidth, _, h.maxWidth, _, h.minHeight, _, h.maxHeight,
        _, h.padding, _, h.spacing, items, hitems, justify, hjustify, _, h.alignSelf, _, h.alignX,
        _, h.alignY, _, h.direction, _, h.position, _, h.top, _, h.right, _, h.bottom, _, h.left, _,
        h.zIndex, align, halign, ?_⟩
      rw [← heq, ← heq']
      rfl

theorem checkLength_eq (x : Option Length) : checkLength x = Style.checkIf Length.check x := by
  cases x <;> rfl

theorem checkPadding_eq (x : Option Padding) : checkPadding x = Style.checkIf Padding.check x := by
  cases x <;> rfl

theorem checkSpacing_eq (x : Option Float) :
    checkSpacing x = Style.checkIf (fun y => checkSpacing (some y)) x := by
  cases x <;> rfl

theorem GivenBy.meets {values : OrderedMap String String} {skipPosition : Bool} {l : Layout}
    (h : l.GivenBy values skipPosition) (sound : l.Sound) : Meets values demands := by
  obtain ⟨align, items, justify, halign, hitems, hjustify, -⟩ := h.aligned
  simp only [Meets, demands, List.forall_mem_cons]
  exact ⟨exists_given_iff.mp ⟨_, h.width, checkLength_eq l.width ▸ sound.width⟩,
    exists_given_iff.mp ⟨_, h.height, checkLength_eq l.height ▸ sound.height⟩,
    exists_read_iff.mp ⟨_, h.minWidth⟩, exists_read_iff.mp ⟨_, h.maxWidth⟩,
    exists_read_iff.mp ⟨_, h.minHeight⟩, exists_read_iff.mp ⟨_, h.maxHeight⟩,
    exists_given_iff.mp ⟨_, h.padding, checkPadding_eq l.padding ▸ sound.padding⟩,
    exists_given_iff.mp ⟨_, h.spacing, checkSpacing_eq l.spacing ▸ sound.spacing⟩,
    exists_read_iff.mp ⟨_, hitems⟩, exists_read_iff.mp ⟨_, hjustify⟩,
    exists_read_iff.mp ⟨_, h.alignSelf⟩, exists_read_iff.mp ⟨_, h.alignX⟩,
    exists_read_iff.mp ⟨_, h.alignY⟩, exists_read_iff.mp ⟨_, h.direction⟩,
    exists_read_iff.mp ⟨_, h.top⟩, exists_read_iff.mp ⟨_, h.right⟩,
    exists_read_iff.mp ⟨_, h.bottom⟩, exists_read_iff.mp ⟨_, h.left⟩,
    exists_read_iff.mp ⟨_, h.zIndex⟩, exists_read_iff.mp ⟨_, halign⟩, by simp⟩

/-- Without a position there is no more to ask of a layout than of its attributes. -/
theorem exists_givenBy_of_meets {values : OrderedMap String String} (skipPosition : Bool)
    (unplaced : values.get? "position" = none) (h : Meets values demands) :
    ∃ l : Layout, l.GivenBy values skipPosition ∧ l.Sound := by
  have hposition : (if skipPosition then pure none else given values "position" Position.parse) =
      .ok none := by
    split
    · rfl
    · exact given_eq_none unplaced
  simp only [Meets, demands, List.forall_mem_cons] at h
  obtain ⟨hwidth, hheight, hminWidth, hmaxWidth, hminHeight, hmaxHeight, hpadding, hspacing, hitems,
    hjustify, hself, hx, hy, hdirection, htop, hright, hbottom, hleft, hzIndex, halign, -⟩ := h
  obtain ⟨width, hwidth, hwidth'⟩ := exists_given_iff.mpr hwidth
  obtain ⟨height, hheight, hheight'⟩ := exists_given_iff.mpr hheight
  obtain ⟨minWidth, hminWidth⟩ := exists_read_iff.mpr hminWidth
  obtain ⟨maxWidth, hmaxWidth⟩ := exists_read_iff.mpr hmaxWidth
  obtain ⟨minHeight, hminHeight⟩ := exists_read_iff.mpr hminHeight
  obtain ⟨maxHeight, hmaxHeight⟩ := exists_read_iff.mpr hmaxHeight
  obtain ⟨padding, hpadding, hpadding'⟩ := exists_given_iff.mpr hpadding
  obtain ⟨spacing, hspacing, hspacing'⟩ := exists_given_iff.mpr hspacing
  obtain ⟨items, hitems⟩ := exists_read_iff.mpr hitems
  obtain ⟨justify, hjustify⟩ := exists_read_iff.mpr hjustify
  obtain ⟨alignSelf, hself⟩ := exists_read_iff.mpr hself
  obtain ⟨alignX, hx⟩ := exists_read_iff.mpr hx
  obtain ⟨alignY, hy⟩ := exists_read_iff.mpr hy
  obtain ⟨direction, hdirection⟩ := exists_read_iff.mpr hdirection
  obtain ⟨top, htop⟩ := exists_read_iff.mpr htop
  obtain ⟨right, hright⟩ := exists_read_iff.mpr hright
  obtain ⟨bottom, hbottom⟩ := exists_read_iff.mpr hbottom
  obtain ⟨left, hleft⟩ := exists_read_iff.mpr hleft
  obtain ⟨zIndex, hzIndex⟩ := exists_read_iff.mpr hzIndex
  obtain ⟨align, halign⟩ := exists_read_iff.mpr halign
  refine ⟨⟨width, height, minWidth, maxWidth, minHeight, maxHeight, padding, spacing,
      align.or items, (align.map Alignment.justification).or justify, alignSelf, alignX, alignY,
      direction, none, top, right, bottom, left, zIndex⟩,
      ⟨hwidth, hheight, hminWidth, hmaxWidth, hminHeight, hmaxHeight, hpadding, hspacing,
      ⟨align, items, justify, halign, hitems, hjustify, rfl, rfl⟩, hself, hx, hy, hdirection,
      hposition, htop, hright, hbottom, hleft, hzIndex⟩, ?_⟩
  exact ⟨checkSpacing_eq spacing ▸ hspacing', checkPadding_eq padding ▸ hpadding',
    checkLength_eq width ▸ hwidth', checkLength_eq height ▸ hheight',
    fun h => absurd h Bool.false_ne_true⟩

theorem check_of_isEmpty {l : Layout} (h : l.isEmpty = true) : l.check = .ok () := by
  simp only [isEmpty, Bool.and_eq_true, Option.isNone_iff_eq_none] at h
  rw [check_eq_ok_iff]
  refine ⟨by simp [h, checkRange], by simp [h, checkRange], ⟨?_, ?_, ?_, ?_, ?_⟩⟩ <;>
    simp [h, checkSpacing, checkPadding, checkLength]

/-- A layout is given exactly when its fields are read and fit together. -/
theorem exists_ofAttributes_iff {values : OrderedMap String String} {skipPosition : Bool} :
    (∃ o, ofAttributes values skipPosition = .ok o) ↔
      ∃ l : Layout, l.GivenBy values skipPosition ∧ l.check = .ok () := by
  simp only [ofAttributes, bind_eq_ok_iff, readFields_eq_ok_iff]
  constructor
  · rintro ⟨o, l, h, hl⟩
    refine ⟨l, h, ?_⟩
    split at hl
    · next hempty => exact check_of_isEmpty hempty
    · split at hl
      · assumption
      · cases hl
  · rintro ⟨l, h, hl⟩
    cases hempty : l.isEmpty with
    | true => exact ⟨none, l, h, by rw [if_pos hempty]; rfl⟩
    | false => exact ⟨some l, l, h, by simp [hempty, hl, pure, Except.pure]⟩

theorem ofAttributes_eq_error {values : OrderedMap String String} {skipPosition : Bool} {l : Layout}
    {fault : ValueFault} (h : l.GivenBy values skipPosition) (hl : l.check = .error fault) :
    ofAttributes values skipPosition = .error (.layout fault) := by
  have hempty : l.isEmpty = false := by
    by_contra hempty
    rw [check_of_isEmpty (by simpa using hempty)] at hl
    cases hl
  rw [ofAttributes, readFields_eq_ok_iff.mpr h]
  simp [hempty, hl, bind, Except.bind, throw, throwThe, MonadExceptOf.throw]

/-- Without a position, the attributes that make up a layout by themselves do so together, unless
the bounds of an axis are crossed. -/
theorem ofAttributes_of_meets {values : OrderedMap String String} (skipPosition : Bool)
    (unplaced : values.get? "position" = none) (h : Meets values demands) :
    (∃ o, ofAttributes values skipPosition = .ok o) ∨
      ∃ (l : Layout) (axis : Axis) (least most : Float), l.GivenBy values skipPosition ∧ l.Sound ∧
        l.Crossed axis least most ∧
        ofAttributes values skipPosition = .error (.layout (.minAboveMax axis least most)) := by
  obtain ⟨l, hgiven, hsound⟩ := exists_givenBy_of_meets skipPosition unplaced h
  cases hcheck : l.check with
  | ok _ => exact .inl (exists_ofAttributes_iff.mpr ⟨l, hgiven, hcheck⟩)
  | error fault =>
      obtain ⟨axis, least, most, hcrossed, rfl⟩ := hsound.crossed_of_check hcheck
      exact .inr ⟨l, axis, least, most, hgiven, hsound, hcrossed,
        ofAttributes_eq_error hgiven hcheck⟩

theorem meets_of_ofAttributes {values : OrderedMap String String} {skipPosition : Bool}
    {o : Option Layout} (h : ofAttributes values skipPosition = .ok o) : Meets values demands := by
  obtain ⟨l, hgiven, hcheck⟩ := exists_ofAttributes_iff.mp ⟨o, h⟩
  exact hgiven.meets ((check_eq_ok_iff l).mp hcheck).2.2

/-- One attribute has no bounds to cross. -/
theorem exists_ofAttributes_single_iff {name text : String} (unplaced : name ≠ "position") :
    (∃ o, ofAttributes [(name, text)] false = .ok o) ↔ Meets [(name, text)] demands := by
  constructor
  · rintro ⟨o, h⟩
    exact meets_of_ofAttributes h
  · intro h
    obtain hok | ⟨l, axis, least, most, hgiven, -, ⟨hbounds, -⟩, -⟩ :=
      ofAttributes_of_meets false (by simp [OrderedMap.get?, unplaced]) h
    · exact hok
    · have only {n : String} {t : String} (found : OrderedMap.get? [(name, text)] n = some t) :
          name = n := by
        rw [OrderedMap.get?] at found
        by_contra other
        simp [other] at found
      cases axis with
      | width =>
          obtain ⟨hleast, hmost⟩ := Prod.mk.inj hbounds
          obtain ⟨_, hmin⟩ := get?_of_given (hleast ▸ hgiven.minWidth)
          obtain ⟨_, hmax⟩ := get?_of_given (hmost ▸ hgiven.maxWidth)
          exact absurd ((only hmin).symm.trans (only hmax)) (by decide)
      | height =>
          obtain ⟨hleast, hmost⟩ := Prod.mk.inj hbounds
          obtain ⟨_, hmin⟩ := get?_of_given (hleast ▸ hgiven.minHeight)
          obtain ⟨_, hmax⟩ := get?_of_given (hmost ▸ hgiven.maxHeight)
          exact absurd ((only hmin).symm.trans (only hmax)) (by decide)

/-- A position by itself has no offset. -/
theorem ofAttributes_position (text : String) :
    ∀ o, ofAttributes [("position", text)] false ≠ .ok o := by
  intro o h
  obtain ⟨l, hgiven, hcheck⟩ := exists_ofAttributes_iff.mp ⟨o, h⟩
  have found : OrderedMap.get? [("position", text)] "position" = some text := rfl
  have hposition : l.position.isSome := by
    have hread := hgiven.position
    rw [if_neg Bool.false_ne_true] at hread
    exact isSome_of_given found hread
  have unset {x : Option Float} {name : String} {read : List Char → Except ValueFault Float}
      (hname : name ≠ "position") (hx : given [("position", text)] name read = .ok x) :
      x.isSome = false := by
    rw [given_eq_none (by simp [OrderedMap.get?, hname.symm])] at hx
    rw [← Except.ok.inj hx]
    rfl
  have hplaced := ((check_eq_ok_iff l).mp hcheck).2.2.placed hposition
  rw [unset (by decide) hgiven.top, unset (by decide) hgiven.right, unset (by decide) hgiven.bottom,
    unset (by decide) hgiven.left] at hplaced
  simp at hplaced

end Layout

end UiMarkup
