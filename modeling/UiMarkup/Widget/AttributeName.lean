import UiMarkup.Theme.State
import UiMarkup.Value.Scalar

/-!
Screen sizes that attributes can be bound to, and attribute names that carry one of them or states
in front of the name of the attribute proper.
-/

namespace UiMarkup

inductive Breakpoint
  | mobile | tablet | desktop
  deriving DecidableEq, Repr

namespace Breakpoint

def all : List Breakpoint := [.mobile, .tablet, .desktop]

def name : Breakpoint → String
  | .mobile => "mobile"
  | .tablet => "tablet"
  | .desktop => "desktop"

/-- A breakpoint by its name in any case, with blanks around it. -/
def ofText? (s : String) : Option Breakpoint := all.find? fun b => b.name = Value.keywordForm s

end Breakpoint

namespace AttributeName

open Text

/-- What stands before and after the first separator, where something stands after it. -/
def splitFirst? (sep : Char) (name : String) : Option (String × String) :=
  match cut? sep name.toList with
  | some (before, after) =>
    if after.isEmpty then none else some (String.ofList before, String.ofList after)
  | none => none

/-- A breakpoint, a hyphen and a name. -/
def splitBreakpoint? (name : String) : Option (Breakpoint × String) := do
  let (before, base) ← splitFirst? '-' name
  return (← Breakpoint.ofText? before, base)

/-- One state, a colon and a name, which may itself have colons. -/
def splitState? (name : String) : Option (WidgetState × String) := do
  let (before, base) ← splitFirst? ':' name
  return (← WidgetState.ofText? before, base)

/-- The part before the last colon and the part after it. -/
def splitLast? (name : String) : Option (String × String) :=
  (cutLast? ':' name.toList).map fun (before, after) => (String.ofList before, String.ofList after)

/-- One state or more, each with a colon behind it, and a name. -/
def splitSelector? (name : String) : Option (StateSelector × String) := do
  let (before, base) ← splitLast? name
  if base.isEmpty then none
  else do
    let states ← (pieces ':' before.toList).mapM fun p => WidgetState.ofText? (String.ofList p)
    return (← StateSelector.ofList? states, base)

end AttributeName
end UiMarkup
