import UiMarkup.Value.Scalar

/-!
Keywords of layouts.
-/

namespace UiMarkup

inductive Alignment
  | start | center | finish | stretch
  deriving DecidableEq, Repr

namespace Alignment

def all : List Alignment := [.start, .center, .finish, .stretch]

def name : Alignment → String
  | .start => "start"
  | .center => "center"
  | .finish => "end"
  | .stretch => "stretch"

def parse : List Char → Except ValueFault Alignment :=
  Value.keyword all name "alignment" "start, center, end, or stretch"

end Alignment

inductive Justification
  | start | center | finish | spaceBetween | spaceAround | spaceEvenly
  deriving DecidableEq, Repr

namespace Justification

def all : List Justification :=
  [.start, .center, .finish, .spaceBetween, .spaceAround, .spaceEvenly]

def name : Justification → String
  | .start => "start"
  | .center => "center"
  | .finish => "end"
  | .spaceBetween => "space_between"
  | .spaceAround => "space_around"
  | .spaceEvenly => "space_evenly"

def parse : List Char → Except ValueFault Justification :=
  Value.keyword all name "justification"
    "start, center, end, space_between, space_around, or space_evenly"

end Justification

/-- The justification that goes with an alignment of both axes; to stretch is to center. -/
def Alignment.justification : Alignment → Justification
  | .start => .start
  | .center => .center
  | .finish => .finish
  | .stretch => .center

inductive Direction
  | horizontal | horizontalReverse | vertical | verticalReverse
  deriving DecidableEq, Repr

namespace Direction

def all : List Direction := [.horizontal, .horizontalReverse, .vertical, .verticalReverse]

def name : Direction → String
  | .horizontal => "horizontal"
  | .horizontalReverse => "horizontal_reverse"
  | .vertical => "vertical"
  | .verticalReverse => "vertical_reverse"

def parse : List Char → Except ValueFault Direction :=
  Value.keyword all name "direction" "horizontal, horizontal_reverse, vertical, or vertical_reverse"

end Direction

inductive Position
  | relative | absolute
  deriving DecidableEq, Repr

namespace Position

def all : List Position := [.relative, .absolute]

def name : Position → String
  | .relative => "relative"
  | .absolute => "absolute"

def parse : List Char → Except ValueFault Position :=
  Value.keyword all name "position" "relative or absolute"

end Position
end UiMarkup
