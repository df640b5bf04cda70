import UiMarkup.Value.Scalar

/-!
Interaction states of widgets, and selectors: sets of states that must all hold.
-/

namespace UiMarkup

inductive WidgetState
  | hover | focus | active | disabled
  deriving DecidableEq, Repr

namespace WidgetState

def all : List WidgetState := [.hover, .focus, .active, .disabled]

def name : WidgetState → String
  | .hover => "hover"
  | .focus => "focus"
  | .active => "active"
  | .disabled => "disabled"

/-- A state by its exact name. -/
def ofName? (s : String) : Option WidgetState := all.find? fun w => w.name = s

/-- A state by its name in any case, with blanks around it. -/
def ofText? (s : String) : Option WidgetState := ofName? (Value.keywordForm s)

theorem mem_all (w : WidgetState) : w ∈ all := by
  cases w <;> decide

theorem ofName?_name (w : WidgetState) : ofName? w.name = some w := by
  cases w <;> decide

end WidgetState

/-- The states of a list, each once and in the order of `WidgetState.all`. -/
def canonicalStates (states : List WidgetState) : List WidgetState :=
  WidgetState.all.filter states.contains

/-- One state, or several that must hold together. Two selectors of the same states are equal. -/
structure StateSelector where
  states : List WidgetState
  canonical : canonicalStates states = states
  ne_nil : states ≠ []
  deriving DecidableEq

theorem canonicalStates_idem (states : List WidgetState) :
    canonicalStates (canonicalStates states) = canonicalStates states := by
  unfold canonicalStates
  apply List.filter_congr
  intro w hw
  rw [Bool.eq_iff_iff]
  simp [List.mem_filter, hw]

namespace StateSelector

/-- The selector of some states, unless there are none. -/
def ofList? (states : List WidgetState) : Option StateSelector :=
  if h : canonicalStates states ≠ [] then
    some ⟨canonicalStates states, canonicalStates_idem states, h⟩
  else none

/-- The selector of one state. -/
def single (w : WidgetState) : StateSelector :=
  ⟨[w], by cases w <;> decide, by simp⟩

/-- The only state, if there is but one. -/
def single? (s : StateSelector) : Option WidgetState :=
  match s.states with
  | [w] => some w
  | _ => none

def isSingle (s : StateSelector) : Bool := s.states.length == 1

/-- How many states the selector asks for. -/
def specificity (s : StateSelector) : Nat := s.states.length

/-- All states of the selector are among the active ones. -/
def holdsIn (s : StateSelector) (active : List WidgetState) : Bool := s.states.all active.contains

def text (s : StateSelector) : String := String.intercalate ":" (s.states.map WidgetState.name)

end StateSelector
end UiMarkup
