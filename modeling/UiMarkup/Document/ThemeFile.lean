import UiMarkup.Markup.Element
import UiMarkup.Theme.Markup
import UiMarkup.Value.Scalar

/-!
The sections that documents are made of, and documents that hold themes only.
-/

namespace UiMarkup

/-- What an element directly inside a document is for. -/
inductive SectionKind
  | themes | classes | startTheme | followSystem
  deriving DecidableEq, Repr

namespace SectionKind

def ofTag? : String → Option SectionKind
  | "themes" => some .themes
  | "style_classes" | "classes" | "styles" => some .classes
  | "global_theme" | "default_theme" => some .startTheme
  | "follow_system" => some .followSystem
  | _ => none

end SectionKind

/-- Whether a section has the system's preference followed. It does unless it
says that it does not. -/
def Element.followsSystem (e : Element) : Bool := Value.switch true ((e.get? "enabled").getD "true")

/-- The fault that unreadable markup is for a document. -/
def ReadFault.ofMarkup : Markup.Fault → ReadFault
  | .xml fault span => .parse ⟨.xml fault, span⟩
  | .unknownEncoding fault => .unknownEncoding fault

namespace ThemeDocument

/-- The document with a section. No two sections have a theme of the same name. -/
def addSection (d : ThemeDocument) (e : Element) : Except ReadFault ThemeDocument :=
  match SectionKind.ofTag? e.tag with
  | some .themes => do
    let found ← ThemeMap.ofSection e
    let themes ← found.foldlM (fun m p => ThemeMap.addNew m p.2) d.themes
    return { d with themes }
  | some .startTheme => .ok { d with default := e.get? "name" }
  | some .followSystem => .ok { d with followSystem := e.followsSystem }
  | _ => invalid (.documentSection e.tag) e

/-- The section is the root, or the sections are its children. -/
def ofElement (root : Element) : Except ReadFault ThemeDocument :=
  if SectionKind.ofTag? root.tag = some .themes then do
    let d ← addSection {} root
    return { d with default := (root.get? "default").or d.default }
  else root.children.foldlM addSection {}

/-- The themes of a file, which must be valid and be able to inherit. -/
def read (bytes : List UInt8) : Except ReadFault ThemeDocument := do
  let markup ← (Markup.read bytes).mapError ReadFault.ofMarkup
  let d ← ofElement markup.root
  d.check.mapError .theme
  d.themes.checkInheritance.mapError .theme
  return d

end ThemeDocument
end UiMarkup
