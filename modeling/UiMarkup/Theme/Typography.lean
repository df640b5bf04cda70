import UiMarkup.Number.Decimal

/-!
Fonts and their sizes.
-/

namespace UiMarkup

inductive FontWeight
  | thin | light | normal | medium | bold | black
  deriving DecidableEq, Repr

namespace FontWeight

def all : List FontWeight := [.thin, .light, .normal, .medium, .bold, .black]

def name : FontWeight → String
  | .thin => "thin"
  | .light => "light"
  | .normal => "normal"
  | .medium => "medium"
  | .bold => "bold"
  | .black => "black"

def ofName? (s : String) : Option FontWeight := all.find? fun w => w.name = s

end FontWeight

structure Typography where
  family : Option String := none
  sizeBase : Option Float := none
  sizeSmall : Option Float := none
  sizeLarge : Option Float := none
  weight : Option FontWeight := none
  lineHeight : Option Float := none

/-- A value that is out of range, or that does not fit the base size. -/
inductive TypographyProblem
  | baseNotPositive (x : Float)
  | baseTooSmall (x : Float)
  | baseTooLarge (x : Float)
  | smallNotPositive (x : Float)
  | smallNotSmaller
  | largeNotPositive (x : Float)
  | largeNotLarger
  | heightNotPositive (x : Float)
  | heightTooTight (x : Float)
  | heightTooLoose (x : Float)

open Number (briefText)

def TypographyProblem.message : TypographyProblem → String
  | .baseNotPositive x => "font_size_base must be positive, got " ++ briefText x
  | .baseTooSmall x => "font_size_base " ++ briefText x ++ " is very small (recommended: 14-18px)"
  | .baseTooLarge x => "font_size_base " ++ briefText x ++ " is very large (recommended: 14-18px)"
  | .smallNotPositive x => "font_size_small must be positive, got " ++ briefText x
  | .smallNotSmaller => "font_size_small should be smaller than font_size_base"
  | .largeNotPositive x => "font_size_large must be positive, got " ++ briefText x
  | .largeNotLarger => "font_size_large should be larger than font_size_base"
  | .heightNotPositive x => "line_height must be positive, got " ++ briefText x
  | .heightTooTight x => "line_height " ++ briefText x ++ " is too tight (recommended: 1.4-1.6)"
  | .heightTooLoose x => "line_height " ++ briefText x ++ " is too loose (recommended: 1.4-1.6)"

namespace Typography

instance : Inhabited Typography := ⟨{}⟩

/-- The base size where none is set. -/
def defaultBase : Float := 16.0

def baseProblems (x : Float) : List TypographyProblem :=
  if x ≤ 0 then [.baseNotPositive x]
  else if x < 8 then [.baseTooSmall x]
  else if 32 < x then [.baseTooLarge x]
  else []

def smallProblems (base x : Float) : List TypographyProblem :=
  if x ≤ 0 then [.smallNotPositive x] else if base ≤ x then [.smallNotSmaller] else []

def largeProblems (base x : Float) : List TypographyProblem :=
  if x ≤ 0 then [.largeNotPositive x] else if x ≤ base then [.largeNotLarger] else []

def heightProblems (x : Float) : List TypographyProblem :=
  if x ≤ 0 then [.heightNotPositive x]
  else if x < 1.0 then [.heightTooTight x]
  else if 2.5 < x then [.heightTooLoose x]
  else []

/-- Every value that is out of range; the small and the large size are
compared with the base size. -/
def problems (t : Typography) : List TypographyProblem :=
  let base := t.sizeBase.getD defaultBase
  (t.sizeBase.map baseProblems).getD [] ++ (t.sizeSmall.map (smallProblems base)).getD [] ++
    (t.sizeLarge.map (largeProblems base)).getD [] ++ (t.lineHeight.map heightProblems).getD []

/-- Field by field, what is set here or else in the other typography. -/
def withDefaults (t u : Typography) : Typography where
  family := t.family.or u.family
  sizeBase := t.sizeBase.or u.sizeBase
  sizeSmall := t.sizeSmall.or u.sizeSmall
  sizeLarge := t.sizeLarge.or u.sizeLarge
  weight := t.weight.or u.weight
  lineHeight := t.lineHeight.or u.lineHeight

end Typography
end UiMarkup
