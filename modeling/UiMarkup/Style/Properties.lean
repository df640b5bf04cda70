import UiMarkup.Style.Background
import UiMarkup.Style.Border
import UiMarkup.Style.Effect

/-!
The visual properties of a widget. Each may be left unset; a value is then taken from another style.
-/

namespace UiMarkup

structure Style where
  background : Option Background := none
  color : Option Color := none
  border : Option Border := none
  shadow : Option Shadow := none
  opacity : Option Float := none
  transform : Option Transform := none

namespace Style

def empty : Style := {}

instance : Inhabited Style := ⟨empty⟩

def isEmpty (s : Style) : Bool :=
  s.background.isNone && s.color.isNone && s.border.isNone && s.shadow.isNone && s.opacity.isNone &&
    s.transform.isNone

/-- Property by property, what is set here or else in the other style. A border
counts as one property. -/
def withDefaults (s t : Style) : Style where
  background := s.background.or t.background
  color := s.color.or t.color
  border := s.border.or t.border
  shadow := s.shadow.or t.shadow
  opacity := s.opacity.or t.opacity
  transform := s.transform.or t.transform

theorem withDefaults_empty (s : Style) : s.withDefaults empty = s := by
  simp [withDefaults, empty]

theorem withDefaults_assoc (s t u : Style) :
    (s.withDefaults t).withDefaults u = s.withDefaults (t.withDefaults u) := by
  simp [withDefaults, Option.or_assoc]

/-- Checks a property if it is set. -/
def checkIf {α : Type} (check : α → Except ValueFault Unit) : Option α → Except ValueFault Unit
  | none => .ok ()
  | some a => check a

/-- All that is set is in range. -/
def check (s : Style) : Except ValueFault Unit := do
  checkIf Background.check s.background
  checkIf Color.check s.color
  checkIf Border.check s.border
  checkIf checkOpacity s.opacity

/-- The attributes that make up a style. -/
def attributeNames : List String :=
  ["background", "color", "border_width", "border_color", "border_radius", "border_style", "shadow",
    "opacity", "transform"]

open Value (given)

/-- The style that attributes make up, if one of them belongs to a style. -/
def ofAttributes (values : OrderedMap String String) : Except ValueFault (Option Style) :=
  if !attributeNames.any values.has then .ok none
  else do
    let background ← given values "background" Background.parse
    let color ← given values "color" Color.parse
    let width ← given values "border_width" Border.readWidth
    let borderColor ← given values "border_color" Color.parse
    let radius ← given values "border_radius" Border.readRadius
    let borderStyle ← given values "border_style" Border.readStyle
    let border ← Border.ofParts width borderColor radius borderStyle
    let shadow ← given values "shadow" Shadow.parse
    let opacity ← given values "opacity" readOpacity
    let transform ← given values "transform" Transform.parse
    let style : Style := ⟨background, color, border, shadow, opacity, transform⟩
    style.check
    return some style

end Style
end UiMarkup
