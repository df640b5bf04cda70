import UiMarkup.Source.Span
import UiMarkup.Style.Properties
import UiMarkup.Theme.Error
import UiMarkup.Theme.Lineage

/-!
Themes: a palette, a typography, a unit of spacing and base styles for kinds of widgets. A theme may
take what it does not set from a parent.
-/

namespace UiMarkup

structure Theme where
  name : String
  palette : Palette := .empty
  typography : Typography := {}
  spacing : Option Float := none
  baseStyles : OrderedMap String Style := []
  parent : Option String := none
  span : Span := .origin

/-- The width of some units of spacing, where a unit is eight pixels unless it is set. -/
def spacingWidth (unit : Option Float) (count : Int) : Float := unit.getD 8.0 * Float.ofInt count

namespace Theme

/-- The parent as a list; an empty name is none. -/
def parents (t : Theme) : List String :=
  match t.parent with
  | some p => if p.isEmpty then [] else [p]
  | none => []

def colorErrors (t : Theme) (role : PaletteColor) : List ThemeProblem :=
  match t.palette.color role with
  | none => []
  | some c =>
    match c.check with
    | .ok () => []
    | .error fault => [.color t.name role fault false]

def baseStyleErrors (t : Theme) : List ThemeProblem :=
  (t.baseStyles.mergeSort fun a b => a.1 ≤ b.1).flatMap fun (tag, style) =>
    match style.check with
    | .ok () => []
    | .error fault => [.baseStyle t.name tag fault]

/-- What is wrong with the theme's own values. Colors may be missing where there is a parent. -/
def problems (t : Theme) : List ThemeProblem :=
  (if t.palette.missing.isEmpty || t.parent.isSome then []
    else [ThemeProblem.missingColors t.name t.palette.missing]) ++
  PaletteColor.all.flatMap t.colorErrors ++
  (if t.typography.problems.isEmpty then []
    else [ThemeProblem.typography t.name t.typography.problems t.parent.isNone]) ++
  (match t.spacing with
    | some unit => if unit ≤ 0 then [ThemeProblem.spacing t.name unit] else []
    | none => []) ++
  t.baseStyleErrors

def errors (t : Theme) : List ThemeError := t.problems.map fun p => ⟨p, some t.span⟩

/-- The first error, if there is one. -/
def check (t : Theme) : Except ThemeError Unit :=
  match t.errors with
  | [] => .ok ()
  | e :: _ => .error e

/-- The theme with what it does not set taken from another one. A base style counts as one value. -/
def inherit (t p : Theme) : Theme :=
  { t with
    palette := t.palette.withDefaults p.palette
    typography := t.typography.withDefaults p.typography
    spacing := t.spacing.or p.spacing
    baseStyles := p.baseStyles.putAll t.baseStyles }

def mergeParents (t : Theme) : List Theme → Theme
  | [] => t
  | p :: _ => t.inherit p

end Theme

/-- Themes by name. -/
abbrev ThemeMap := OrderedMap String Theme

namespace ThemeMap

def sortedNames (m : ThemeMap) : List String := m.keys.mergeSort (· ≤ ·)

def lineage (m : ThemeMap) : Lineage Theme :=
  ⟨m, Theme.parents, Theme.mergeParents, maxInheritanceDepth⟩

def spanOf (m : ThemeMap) (name : String) : Option Span := (m.get? name).map Theme.span

/-- The error that a fault of inheritance is for themes. -/
def errorOf (m : ThemeMap) : Lineage.Fault → ThemeError
  | .unknown name => ⟨.unknown name m.sortedNames, none⟩
  | .notFound parent child => ⟨.parentNotFound parent child m.sortedNames, m.spanOf child⟩
  | .circular chain => ⟨.circular chain, chain.head?.bind m.spanOf⟩
  | .tooDeep name => ⟨.tooDeep name, m.spanOf name⟩
  | .emptyPath => ⟨.noThemes, none⟩

/-- A theme with all that it inherits. -/
def resolve (m : ThemeMap) (name : String) : Except ThemeError Theme :=
  (m.lineage.resolveFresh name).mapError m.errorOf

def resolveAll (m : ThemeMap) : Except ThemeError ThemeMap :=
  m.lineage.resolveAllFresh.mapError m.errorOf

/-- Checks every theme in the order of the names, up to the first error. -/
def checkEach (m : ThemeMap) (check : String → Theme → Except ThemeError Unit) :
    Except ThemeError Unit :=
  m.sortedNames.forM fun name => ((m.get? name).map (check name)).getD (.ok ())

/-- A theme that has a parent lacks no color once it has inherited. -/
def checkInherited (name : String) (t : Theme) : Except ThemeError Unit :=
  if !t.palette.missing.isEmpty && t.parent.isSome then
    .error ⟨.missingAfterInheritance name t.palette.missing, some t.span⟩
  else .ok ()

/-- All themes can be resolved, and then none that has a parent lacks a color. -/
def checkInheritance (m : ThemeMap) : Except ThemeError Unit := do
  let resolved ← m.resolveAll
  checkEach resolved checkInherited

end ThemeMap

/-- The themes of a document, the one to start with, and whether the system's
preference goes first. -/
structure ThemeDocument where
  themes : ThemeMap := []
  default : Option String := none
  followSystem : Bool := true

namespace ThemeDocument

/-- There is a theme, the default is one of them, and all are valid. -/
def check (d : ThemeDocument) : Except ThemeError Unit := do
  if d.themes.isEmpty then throw ⟨.noThemes, none⟩
  match d.default with
  | some name => if !d.themes.has name then throw ⟨.unknownDefault name d.themes.sortedNames, none⟩
  | none => pure ()
  d.themes.checkEach fun _ t => t.check

/-- The theme used where nothing else is asked for. -/
def fallback : String := "light"

/-- The theme to start with: what the system prefers, then the default, then a light one. -/
def startTheme (d : ThemeDocument) (preference : Option String) : String :=
  match preference with
  | some p => if d.followSystem && !p.isEmpty && d.themes.has p then p else d.default.getD fallback
  | none => d.default.getD fallback

end ThemeDocument
end UiMarkup
