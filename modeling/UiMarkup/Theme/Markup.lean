import UiMarkup.Markup.Element
import UiMarkup.ParseError
import UiMarkup.Theme.StyleClass
import UiMarkup.Theme.Theme
import UiMarkup.Widget.AttributeName

/-!
Themes and style classes from elements.
-/

namespace UiMarkup

open Text

/-- An invalid element. -/
def invalid {α : Type} (problem : ParseProblem) (e : Element) : Except ReadFault α :=
  .error (.parse ⟨problem, e.span⟩)

/-! ### Themes -/

namespace Palette

/-- The palette with the color that an attribute sets. -/
def addAttribute (e : Element) (theme : String) (p : Palette) (a : Attribute) :
    Except ReadFault Palette :=
  match PaletteColor.ofName? a.name with
  | none => invalid (.unknownAttribute .palette a.name) e
  | some role =>
    match Color.parse a.value.toList with
    | .ok c => .ok (p.set role c)
    | .error fault => .error (.theme ⟨.color theme role fault true, some a.span⟩)

/-- The palette of a theme. -/
def ofElement (e : Element) (theme : String) : Except ReadFault Palette :=
  e.attributes.foldlM (addAttribute e theme) .empty

end Palette

namespace Typography

/-- A number of a typography. -/
def readNumber (e : Element) (name text : String) : Except ReadFault Float :=
  match Number.readFloat? text.toList with
  | some x => .ok x
  | none => invalid (.typographyNumber name text) e

def readWeight (e : Element) (text : String) : Except ReadFault FontWeight :=
  match FontWeight.ofName? (String.ofList (lower text.toList)) with
  | some w => .ok w
  | none => invalid (.fontWeight text) e

/-- The typography with what an attribute sets. -/
def addAttribute (e : Element) (t : Typography) (a : Attribute) : Except ReadFault Typography :=
  let text := String.ofList (trim a.value.toList)
  match a.name with
  | "font_family" => .ok { t with family := some text }
  | "font_weight" => do return { t with weight := some (← readWeight e text) }
  | "font_size_base" => do return { t with sizeBase := some (← readNumber e a.name text) }
  | "font_size_small" => do return { t with sizeSmall := some (← readNumber e a.name text) }
  | "font_size_large" => do return { t with sizeLarge := some (← readNumber e a.name text) }
  | "line_height" => do return { t with lineHeight := some (← readNumber e a.name text) }
  | _ => invalid (.unknownAttribute .typography a.name) e

def ofElement (e : Element) : Except ReadFault Typography :=
  e.attributes.foldlM (addAttribute e) {}

end Typography

/-- The unit of spacing, if the element sets it. -/
def spacingOfElement (e : Element) : Except ReadFault (Option Float) :=
  match e.get? "unit" with
  | none => .ok none
  | some text =>
    match Number.readFloat? text.toList with
    | some x => .ok (some x)
    | none => invalid (.spacingUnit text) e

/-- The style of a kind of widget, which is empty if no attribute belongs to a style. -/
def baseStyleOfElement (e : Element) : Except ReadFault Style :=
  match WidgetKind.ofTag? e.tag with
  | none => invalid (.unknownBaseWidget e.tag) e
  | some _ =>
    match Style.ofAttributes e.values with
    | .ok style => .ok (style.getD .empty)
    | .error fault => invalid (.baseStyle e.tag fault) e

def baseStylesOfElement (e : Element) : Except ReadFault (OrderedMap String Style) :=
  e.children.foldlM
    (fun styles child => do return styles.put child.tag (← baseStyleOfElement child)) []

namespace Theme

/-- The name of a theme that has none. -/
def unnamed : String := "default"

/-- The theme with what a child of its element sets. -/
def addChild (t : Theme) (e : Element) : Except ReadFault Theme :=
  match e.tag with
  | "palette" => do return { t with palette := ← Palette.ofElement e t.name }
  | "typography" => do return { t with typography := ← Typography.ofElement e }
  | "spacing" => do return { t with spacing := ← spacingOfElement e }
  | "base_styles" => do return { t with baseStyles := ← baseStylesOfElement e }
  | _ => invalid (.themeChild e.tag t.name) e

/-- A text that is not empty. -/
def nonEmpty? (text : Option String) : Option String := text.filter (!·.isEmpty)

def ofElement (e : Element) : Except ReadFault Theme :=
  let parent := nonEmpty? ((e.get? "extends").map fun text => String.ofList (trim text.toList))
  let start : Theme := { name := (nonEmpty? (e.get? "name")).getD unnamed, parent, span := e.span }
  e.children.foldlM addChild start

end Theme

namespace ThemeMap

/-- The themes with one more, whose name must be new. -/
def addNew (m : ThemeMap) (t : Theme) : Except ReadFault ThemeMap :=
  if m.has t.name then .error (.theme ⟨.duplicate t.name, some t.span⟩) else .ok (m.put t.name t)

/-- The themes with that of a child of a section, if it is one. -/
def addChild (m : ThemeMap) (e : Element) : Except ReadFault ThemeMap :=
  if e.tag = "theme" then do addNew m (← Theme.ofElement e) else .ok m

/-- The themes of a section. -/
def ofSection (e : Element) : Except ReadFault ThemeMap := e.children.foldlM addChild []

end ThemeMap

/-! ### Style classes -/

namespace StyleClass

/-- The attributes of a style class, sorted by the states that they are for. -/
structure Routed where
  base : OrderedMap String String := []
  parents : List String := []
  states : OrderedMap WidgetState (OrderedMap String String) := []
  combined : OrderedMap StateSelector (OrderedMap String String) := []

/-- What stands before the last colon of a name. -/
def statesText (name : String) : String := ((AttributeName.splitLast? name).map Prod.fst).getD name

def isKnown (name : String) : Bool :=
  Layout.attributeNames.contains name || Style.attributeNames.contains name

/-- An attribute with states in front. -/
def addStateAttribute (e : Element) (r : Routed) (a : Attribute) : Except ReadFault Routed :=
  match AttributeName.splitSelector? a.name with
  | none => invalid (.statePrefix (statesText a.name)) e
  | some (selector, base) =>
    match selector.single? with
    | some state =>
      .ok { r with states := r.states.adjust state [] (OrderedMap.put · base a.value) }
    | none =>
      .ok { r with combined := r.combined.adjust selector [] (OrderedMap.put · base a.value) }

def addAttribute (e : Element) (r : Routed) (a : Attribute) : Except ReadFault Routed :=
  if a.name = "name" then .ok r
  else if a.name = "extends" then .ok { r with parents := (words a.value.toList).map String.ofList }
  else if a.name.toList.contains ':' then addStateAttribute e r a
  else if isKnown a.name then .ok { r with base := r.base.put a.name a.value }
  else invalid (.unknownAttribute .styleClass a.name) e

/-- A child element, which holds the style of one state. -/
def addChild (name : String) (r : Routed) (e : Element) : Except ReadFault Routed :=
  match WidgetState.ofText? e.tag with
  | none => invalid (.classChild e.tag name) e
  | some state => .ok { r with states := r.states.adjust state [] (OrderedMap.putAll · e.values) }

/-- The styles of some variants. -/
def readVariants {κ : Type} (label : κ → String) (e : Element) :
    List (κ × OrderedMap String String) →
    Except ReadFault (List (κ × Style))
  | [] => .ok []
  | (k, values) :: more =>
    match Style.ofAttributes values with
    | .error fault => invalid (.stateValue (label k) fault) e
    | .ok style => do
      let styles ← readVariants label e more
      return (k, style.getD .empty) :: styles

/-- The style and the layout that apply in all states. -/
def readBase (values : OrderedMap String String) : Except ValueFault (Style × Option Layout) := do
  let style ← Style.ofAttributes values
  let layout ← Layout.ofAttributes values false
  return (style.getD .empty, layout)

def ofElement (e : Element) : Except ReadFault StyleClass := do
  let name := String.ofList (trim ((e.get? "name").getD "").toList)
  if name.isEmpty then invalid .unnamedClass e
  else do
    let routed ← e.attributes.foldlM (addAttribute e) {}
    let routed ← e.children.foldlM (addChild name) routed
    match readBase routed.base with
    | .error fault => invalid (.classValue name fault) e
    | .ok (style, layout) => do
      let states ← readVariants WidgetState.name e routed.states
      let combined ← readVariants StateSelector.text e routed.combined
      return { name, style, layout, states, combined, parents := routed.parents, span := e.span }

end StyleClass

namespace ClassMap

def classTags : List String := ["class", "style"]

/-- The classes with that of a child of a section, if it is one. A later class of
the same name counts. -/
def addChild (m : ClassMap) (e : Element) : Except ReadFault ClassMap :=
  if classTags.contains e.tag then do
    let c ← StyleClass.ofElement e
    return m.put c.name c
  else .ok m

/-- The classes of a section. -/
def ofSection (e : Element) : Except ReadFault ClassMap := e.children.foldlM addChild []

end ClassMap
end UiMarkup
