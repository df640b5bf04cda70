import UiMarkup.Style.Gradient

/-!
Backgrounds: a color, a gradient or an image.
-/

namespace UiMarkup

inductive ImageFit
  | fill | contain | cover | scaleDown
  deriving DecidableEq, Repr

namespace ImageFit

def all : List ImageFit := [.fill, .contain, .cover, .scaleDown]

def name : ImageFit → String
  | .fill => "fill"
  | .contain => "contain"
  | .cover => "cover"
  | .scaleDown => "scale_down"

end ImageFit

inductive Background
  | color (color : Color)
  | gradient (gradient : Gradient)
  | image (path : String) (fit : ImageFit)

namespace Background

def check : Background → Except ValueFault Unit
  | .color c => c.check
  | .gradient g => g.check
  | .image _ _ => .ok ()

open Text Value

def isQuote (c : Char) : Bool := c == '\'' || c == '"'

/-- The path inside `url(…)`, where quotes may stand around it. -/
def imagePath? (value : List Char) : Option (List Char) :=
  let opening := "url(".toList
  if opening.isPrefixOf value then
    (dropSuffix? [')'] (value.drop opening.length)).map fun inner => trimBy isQuote (trim inner)
  else none

/-- The background that a text denotes; an image covers its widget. -/
def parse (text : List Char) : Except ValueFault Background := do
  let value := trim text
  if "linear-gradient(".toList.isPrefixOf value || "radial-gradient(".toList.isPrefixOf value then
    return .gradient (← Gradient.parse value)
  else
    match imagePath? value with
    | some path => return .image (String.ofList path) .cover
    | none => return .color (← Color.parse value)

end Background
end UiMarkup
