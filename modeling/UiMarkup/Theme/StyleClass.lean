import UiMarkup.Layout.Constraints
import UiMarkup.Source.Span
import UiMarkup.Style.Properties
import UiMarkup.Theme.Error
import UiMarkup.Theme.Lineage

/-!
Style classes: named styles and layouts, with variants for states of a widget. A class may take what
it does not set from several parents, the first of them going first.
-/

namespace UiMarkup

/-- Styles for states or selectors. -/
abbrev Variants (κ : Type) := OrderedMap κ Style

namespace Variants

variable {κ : Type} [DecidableEq κ]

/-- A style over that of the other variants for the same key, if there is one. -/
def entryWithDefaults (n : Variants κ) (p : κ × Style) : κ × Style :=
  (p.1, match OrderedMap.get? n p.1 with
    | some s => p.2.withDefaults s
    | none => p.2)

/-- Variants with others behind them: first those set here, then what only the others have. -/
def withDefaults (m n : Variants κ) : Variants κ :=
  List.map (entryWithDefaults n) m ++ List.filter (fun p => !OrderedMap.has m p.1) n

/-- The first variant with a bad value. -/
def check (part : κ → ClassPart) (span : Span) : Variants κ → Except ClassFault Unit
  | [] => .ok ()
  | (k, s) :: more => do
    s.check.mapError fun fault => ⟨part k, fault, span⟩
    check part span more

end Variants

structure StyleClass where
  name : String
  style : Style := {}
  layout : Option Layout := none
  parents : List String := []
  states : Variants WidgetState := []
  combined : Variants StateSelector := []
  span : Span := .origin

/-- A layout with the defaults of another one, where either may be missing. -/
def layoutWithDefaults : Option Layout → Option Layout → Option Layout
  | none, m => m
  | some l, none => some l
  | some l, some m => some (l.withDefaults m)

namespace StyleClass

/-- The class's own values are in range. -/
def check (c : StyleClass) : Except ClassFault Unit := do
  c.style.check.mapError fun fault => ⟨.style, fault, c.span⟩
  match c.layout with
  | some l => l.check.mapError fun fault => ⟨.layout, fault, c.span⟩
  | none => pure ()
  c.states.check .state c.span
  c.combined.check .selector c.span

/-- The class with what it does not set taken from another one. -/
def inherit (c p : StyleClass) : StyleClass :=
  { c with
    style := c.style.withDefaults p.style
    layout := layoutWithDefaults c.layout p.layout
    states := Variants.withDefaults c.states p.states
    combined := Variants.withDefaults c.combined p.combined }

/-- The class with the defaults of its parents, of which an earlier one wins over a later one. -/
def mergeParents (c : StyleClass) : List StyleClass → StyleClass
  | [] => c
  | p :: ps => c.inherit (ps.foldl inherit p)

end StyleClass

/-- Style classes by name. -/
abbrev ClassMap := OrderedMap String StyleClass

namespace ClassMap

def sortedNames (m : ClassMap) : List String := m.keys.mergeSort (· ≤ ·)

def lineage (m : ClassMap) : Lineage StyleClass :=
  ⟨m, StyleClass.parents, StyleClass.mergeParents, maxInheritanceDepth⟩

def spanOf (m : ClassMap) (name : String) : Option Span := (m.get? name).map StyleClass.span

/-- The error that a fault of inheritance is for style classes. -/
def errorOf (m : ClassMap) : Lineage.Fault → ClassError
  | .unknown name => ⟨.unknown name, none⟩
  | .notFound parent child => ⟨.parentNotFound parent child, m.spanOf child⟩
  | .circular chain => ⟨.circular chain, chain.head?.bind m.spanOf⟩
  | .tooDeep name => ⟨.tooDeep name, m.spanOf name⟩
  | .emptyPath => ⟨.circular [], none⟩

/-- A class with all that it inherits. -/
def resolve (m : ClassMap) (name : String) : Except ClassError StyleClass :=
  (m.lineage.resolveFresh name).mapError m.errorOf

def resolveAll (m : ClassMap) : Except ClassError ClassMap :=
  m.lineage.resolveAllFresh.mapError m.errorOf

/-- Every class can be resolved. -/
def checkInheritance (m : ClassMap) : Except ClassError Unit := do
  let _ ← m.resolveAll

end ClassMap
end UiMarkup
