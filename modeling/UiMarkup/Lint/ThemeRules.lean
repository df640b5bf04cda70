import UiMarkup.Lint.Finding

/-!
Rules about themes and style classes.
-/

namespace UiMarkup.Lint

/-! ### Themes -/

namespace ThemeRule

def id : String := "theme"

def ofError (c : Context) (e : ThemeError) : Finding :=
  c.error id e.problem.message e.span e.problem.suggestion

def valueFindings (c : Context) : List Finding :=
  c.document.themes.sortedNames.flatMap fun name =>
    match c.document.themes.get? name with
    | some t => t.errors.map (ofError c)
    | none => []

def inheritanceFindings (c : Context) : List Finding :=
  if c.document.themes.isEmpty then []
  else match c.document.themes.checkInheritance with
    | .ok () => []
    | .error e => [ofError c e]

/-- The theme that the document starts with must be one of its themes. -/
def startFindings (c : Context) : List Finding :=
  match c.document.startTheme with
  | none => []
  | some name =>
    let names := c.document.themes.keys
    if names.contains name then []
    else [c.error id
      ("Global theme '" ++ name ++ "' not found. Available: " ++ listOr "none" (sorted names)) none
      (some (didYouMean name names "Define the theme inside <themes>"))]

def rule : Rule where
  id := id
  label := "ThemeRule"
  description := "Validate theme values, inheritance and the global theme reference"
  check := fun c => .ok (valueFindings c ++ inheritanceFindings c ++ startFindings c)

end ThemeRule

/-! ### Style classes -/

namespace StyleClassRule

def id : String := "style-class"

def valueFinding? (c : Context) (name : String) : Option Finding :=
  match c.document.classes.get? name with
  | none => none
  | some s =>
    match s.check with
    | .ok () => none
    | .error fault =>
      some (c.error id ("Invalid style class '" ++ name ++ "': " ++ fault.message)
        (some s.span) none)

def inheritanceFindings (c : Context) : List Finding :=
  match c.document.classes.checkInheritance with
  | .ok () => []
  | .error e => [c.error id e.problem.message e.span e.problem.suggestion]

def rule : Rule where
  id := id
  label := "StyleClassRule"
  description := "Validate style class values and inheritance"
  check := fun c =>
      .ok (c.document.classes.sortedNames.filterMap (valueFinding? c) ++ inheritanceFindings c)

end StyleClassRule

/-! ### References of widgets -/

namespace ReferenceRule

def id : String := "unknown-reference"

def classFinding? (c : Context) (w : Widget) (name : String) : Option Finding :=
  let names := c.document.classes.keys
  if names.contains name then none
  else some (c.error id ("Unknown style class '" ++ name ++ "' on " ++ w.kind.displayName)
    (some w.span)
    (some (didYouMean name names ("Define <class name=\"" ++ name ++ "\"> in <style_classes>"))))

def themeFindings (c : Context) (w : Widget) : List Finding :=
  match w.theme with
  | some (.static name) =>
    let names := c.document.themes.keys
    if names.contains name then []
    else [c.error id ("Unknown theme '" ++ name ++ "' on " ++ w.kind.displayName) (some w.span)
      (some (didYouMean name names "Define the theme inside <themes>"))]
  | _ => []

def rule : Rule where
  id := id
  label := "ReferenceRule"
  description := "Detect references to undefined style classes and themes"
  check := fun c => .ok (c.document.walk.flatMap fun w =>
    w.classes.filterMap (classFinding? c w) ++ themeFindings c w)

end ReferenceRule
end UiMarkup.Lint
