import UiMarkup.Document.ThemeFile
import UiMarkup.Widget.Builder
import UiMarkup.Widget.VersionText

/-!
Documents: a widget on its own, or an element with sections for themes and style
classes and with one widget.
-/

namespace UiMarkup

structure Document where
  root : Widget
  version : Version := .first
  themes : ThemeMap := []
  classes : ClassMap := []
  startTheme : Option String := none
  followSystem : Bool := true

/-- What the children of a document's element hold. -/
structure Sections where
  themes : ThemeMap := []
  classes : ClassMap := []
  startTheme : Option String := none
  followSystem : Bool := true
  widget : Option Widget := none

namespace Document

open Widget (Build refuse)

/-- The themes of a section; an error of a theme becomes one of the document. -/
def readThemes (e : Element) : Except ReadFault ThemeMap :=
  (ThemeMap.ofSection e).mapError fun
    | .theme error => .parse ⟨.theme error.problem, error.span.getD e.span⟩
    | fault => fault

/-- The sections with one more child. All that is no section is a widget, of
which there may be one. -/
def addChild (custom : List String) (source : SourceMap) (s : Sections) (e : Element) :
    Build Sections := do
  match SectionKind.ofTag? e.tag with
  | some .themes => return { s with themes := s.themes.putAll (← readThemes e) }
  | some .classes => return { s with classes := s.classes.putAll (← ClassMap.ofSection e) }
  | some .startTheme => return { s with startTheme := (e.get? "name").or s.startTheme }
  | some .followSystem => return { s with followSystem := e.followsSystem }
  | none =>
    if s.widget.isSome then refuse .severalRoots e.span
    else return { s with widget := some (← Widget.build custom source e) }

def addChildren (custom : List String) (source : SourceMap) :
    Sections → List Element → Build Sections
  | s, [] => pure s
  | s, e :: es => do addChildren custom source (← addChild custom source s e) es

/-- The version that a document's element declares. -/
def declaredVersion (root : Element) : Except ReadFault Version :=
  match root.attribute? "version" with
  | none => .ok .first
  | some a => do
    let version ← Version.parse a.value a.span
    version.checkSupported a.span
    return version

/-- The widget of the document. Without one, there must be themes or classes. -/
def widgetOf (s : Sections) (root : Element) : Except ReadFault Widget :=
  match s.widget with
  | some w => .ok w
  | none =>
    if s.themes.isEmpty && s.classes.isEmpty then refuse .noRoot root.span
    else .ok { kind := .builtin .column, span := root.span }

/-- The widgets that the declared version does not have yet. -/
def gaps (version : Version) (root : Widget) : List (VersionGap × Span) :=
  root.walk.filterMap fun w =>
    if w.kind.since.newerThan version then some (⟨w.kind, version⟩, w.span) else none

def checkVersions (version : Version) (root : Widget) : Except ReadFault Unit :=
  match (gaps version root).head? with
  | some (gap, span) => refuse (.widgetTooNew gap) span
  | none => .ok ()

/-- The document of an element with sections. -/
def ofSections (custom : List String) (source : SourceMap) (root : Element) : Build Document := do
  let version ← declaredVersion root
  let s ← addChildren custom source {} root.children
  let widget ← widgetOf s root
  checkVersions version widget
  return { root := widget, version, themes := s.themes, classes := s.classes,
           startTheme := s.startTheme, followSystem := s.followSystem }

/-- The document of some markup. -/
def ofMarkup (custom : List String) (m : Markup) : Build Document :=
  if m.root.tag = documentTag then ofSections custom m.source m.root
  else do return { root := ← Widget.build custom m.source m.root }

/-- Reads a document, with the notices met up to its end or its first error. -/
def read (custom : List String) (bytes : List UInt8) : Except ReadFault Document × List Notice :=
  match Markup.read bytes with
  | .error fault => (.error (.ofMarkup fault), [])
  | .ok m => (ofMarkup custom m).run []

def walk (d : Document) : List Widget := d.root.walk

/-- The widgets that are newer than the document says it is. -/
def versionGaps (d : Document) : List (VersionGap × Span) := gaps d.version d.root

/-- The themes as a document of their own. -/
def themeDocument (d : Document) : ThemeDocument := ⟨d.themes, d.startTheme, d.followSystem⟩

end Document
end UiMarkup
