import UiMarkup.Layout.Keyword
import UiMarkup.Layout.Length

/-!
The layout of a widget: its size, spacing, alignment and place. Each field may be left unset.
-/

namespace UiMarkup

structure Layout where
  width : Option Length := none
  height : Option Length := none
  minWidth : Option Float := none
  maxWidth : Option Float := none
  minHeight : Option Float := none
  maxHeight : Option Float := none
  padding : Option Padding := none
  spacing : Option Float := none
  alignItems : Option Alignment := none
  justifyContent : Option Justification := none
  alignSelf : Option Alignment := none
  alignX : Option Alignment := none
  alignY : Option Alignment := none
  direction : Option Direction := none
  position : Option Position := none
  top : Option Float := none
  right : Option Float := none
  bottom : Option Float := none
  left : Option Float := none
  zIndex : Option Int := none

namespace Layout

def empty : Layout := {}

instance : Inhabited Layout := ⟨empty⟩

def isEmpty (l : Layout) : Bool :=
  l.width.isNone && l.height.isNone && l.minWidth.isNone && l.maxWidth.isNone &&
    l.minHeight.isNone && l.maxHeight.isNone && l.padding.isNone && l.spacing.isNone &&
    l.alignItems.isNone && l.justifyContent.isNone && l.alignSelf.isNone && l.alignX.isNone &&
    l.alignY.isNone && l.direction.isNone && l.position.isNone && l.top.isNone && l.right.isNone &&
    l.bottom.isNone && l.left.isNone && l.zIndex.isNone

/-- Field by field, what is set here or else in the other layout. -/
def withDefaults (l m : Layout) : Layout where
  width := l.width.or m.width
  height := l.height.or m.height
  minWidth := l.minWidth.or m.minWidth
  maxWidth := l.maxWidth.or m.maxWidth
  minHeight := l.minHeight.or m.minHeight
  maxHeight := l.maxHeight.or m.maxHeight
  padding := l.padding.or m.padding
  spacing := l.spacing.or m.spacing
  alignItems := l.alignItems.or m.alignItems
  justifyContent := l.justifyContent.or m.justifyContent
  alignSelf := l.alignSelf.or m.alignSelf
  alignX := l.alignX.or m.alignX
  alignY := l.alignY.or m.alignY
  direction := l.direction.or m.direction
  position := l.position.or m.position
  top := l.top.or m.top
  right := l.right.or m.right
  bottom := l.bottom.or m.bottom
  left := l.left.or m.left
  zIndex := l.zIndex.or m.zIndex

theorem withDefaults_empty (l : Layout) : l.withDefaults empty = l := by
  simp [withDefaults, empty]

theorem withDefaults_assoc (l m n : Layout) :
    (l.withDefaults m).withDefaults n = l.withDefaults (m.withDefaults n) := by
  simp [withDefaults, Option.or_assoc]

/-- The least size of an axis is not above the largest one. -/
def checkRange (axis : Axis) : Option Float → Option Float → Except ValueFault Unit
  | some least, some most => if most < least then .error (.minAboveMax axis least most) else .ok ()
  | _, _ => .ok ()

def checkSpacing : Option Float → Except ValueFault Unit
  | some x => if x < 0 then .error (.negativeSpacing x) else .ok ()
  | none => .ok ()

def checkPadding : Option Padding → Except ValueFault Unit
  | some p => p.check
  | none => .ok ()

def checkLength : Option Length → Except ValueFault Unit
  | some l => l.check
  | none => .ok ()

/-- All that is set is in range and fits together. A position needs at least one offset. -/
def check (l : Layout) : Except ValueFault Unit := do
  checkRange .width l.minWidth l.maxWidth
  checkRange .height l.minHeight l.maxHeight
  checkSpacing l.spacing
  checkPadding l.padding
  checkLength l.width
  checkLength l.height
  if l.position.isSome && l.top.isNone && l.right.isNone && l.bottom.isNone && l.left.isNone then
    throw .positionWithoutOffset

/-- The attributes that make up a layout. -/
def attributeNames : List String :=
  ["width", "height", "min_width", "max_width", "min_height", "max_height", "padding", "spacing",
    "align_items", "justify_content", "align_self", "align_x", "align_y", "align", "direction",
    "position", "top", "right", "bottom", "left", "z_index"]

open Value

def readSpacing (text : List Char) : Except ValueFault Float := do
  let x ← number "spacing" text
  if x < 0 then throw (.negative .spacing x)
  return x

/-- A least or a largest size. -/
def readConstraint (text : List Char) : Except ValueFault Float := do
  let x ← number "constraint value" text
  if x < 0 then throw (.negative .constraint x)
  return x

def readOffset (name : String) (text : List Char) : Except ValueFault Float :=
  number (name ++ " value") text

def readWhole (name : String) (text : List Char) : Except ValueFault Int :=
  wholeNumber (name ++ " value") text

/-- The fields as their attributes give them, without a look at how they fit together. An alignment
of both axes wins over those of one axis. -/
def readFields (values : OrderedMap String String) (skipPosition : Bool) :
    Except ValueFault Layout := do
  let width ← given values "width" Length.parse
  let height ← given values "height" Length.parse
  let minWidth ← given values "min_width" readConstraint
  let maxWidth ← given values "max_width" readConstraint
  let minHeight ← given values "min_height" readConstraint
  let maxHeight ← given values "max_height" readConstraint
  let padding ← given values "padding" Padding.parse
  let spacing ← given values "spacing" readSpacing
  let alignItems ← given values "align_items" Alignment.parse
  let justifyContent ← given values "justify_content" Justification.parse
  let alignSelf ← given values "align_self" Alignment.parse
  let alignX ← given values "align_x" Alignment.parse
  let alignY ← given values "align_y" Alignment.parse
  let direction ← given values "direction" Direction.parse
  let position ← if skipPosition then pure none else given values "position" Position.parse
  let top ← given values "top" (readOffset "top")
  let right ← given values "right" (readOffset "right")
  let bottom ← given values "bottom" (readOffset "bottom")
  let left ← given values "left" (readOffset "left")
  let zIndex ← given values "z_index" (readWhole "z_index")
  let align ← given values "align" Alignment.parse
  return {
    width, height, minWidth, maxWidth, minHeight, maxHeight, padding, spacing
    alignItems := align.or alignItems
    justifyContent := (align.map Alignment.justification).or justifyContent
    alignSelf, alignX, alignY, direction, position, top, right, bottom, left, zIndex }

/-- The layout that attributes make up, if one of them belongs to a layout. Where a widget gives the
attribute `position` another meaning, it is skipped. -/
def ofAttributes (values : OrderedMap String String) (skipPosition : Bool) :
    Except ValueFault (Option Layout) := do
  let layout ← readFields values skipPosition
  if layout.isEmpty then return none
  match layout.check with
  | .ok () => return some layout
  | .error fault => throw (.layout fault)

end Layout
end UiMarkup
