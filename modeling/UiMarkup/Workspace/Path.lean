import UiMarkup.Text.Split

/-!
Paths of files: components between slashes. Empty components and single dots say nothing and are
left out; double dots are kept until a path is settled.
-/

namespace UiMarkup

structure Path where
  isAbsolute : Bool := false
  parts : List String := []
  deriving DecidableEq, Repr

namespace Path

/-- The working directory. -/
def here : Path := {}

instance : Inhabited Path := ⟨here⟩

def currentPart : String := "."

def parentPart : String := ".."

def isSilent (part : String) : Bool := part.isEmpty || part = currentPart

/-- All components of a text, the silent ones included. -/
def components (text : String) : List String := (Text.pieces '/' text.toList).map String.ofList

def isRooted (text : String) : Bool := text.toList.head? = some '/'

def ofText (text : String) : Path := ⟨isRooted text, (components text).filter fun p => !isSilent p⟩

def text (p : Path) : String :=
  if p.isAbsolute then "/" ++ String.intercalate "/" p.parts
  else if p.parts.isEmpty then currentPart
  else String.intercalate "/" p.parts

/-- The last component. -/
def name (p : Path) : String := p.parts.getLastD ""

def parent (p : Path) : Path := { p with parts := p.parts.dropLast }

def child (p : Path) (part : String) : Path := { p with parts := p.parts ++ [part] }

def append (p : Path) (parts : List String) : Path := { p with parts := p.parts ++ parts }

/-- The last dot of the name and what follows it, if something stands on both sides of the dot. -/
def suffix (p : Path) : String :=
  match Text.cutLast? '.' p.name.toList with
  | some (before, after) =>
    if before.isEmpty || after.isEmpty then "" else String.ofList ('.' :: after)
  | none => ""

/-- The path one component further, where double dots lead back. -/
def step (p : Path) (part : String) : Path :=
  if isSilent part then p
  else if part = parentPart then
    match p.parts.getLast? with
    | none => if p.isAbsolute then p else p.child part
    | some last => if last = parentPart then p.child part else p.parent
  else p.child part

/-- The path without double dots, except for those that lead out of the working directory. -/
def settled (p : Path) : Path := p.parts.foldl step { p with parts := [] }

/-- What follows the components of a directory. -/
def below? (directory p : Path) : Option (List String) :=
  if directory.isAbsolute = p.isAbsolute && directory.parts.isPrefixOf p.parts then
    some (p.parts.drop directory.parts.length)
  else none

/-- The order of lists of components: component by component, a list before its continuations. -/
def partsNotAfter : List String → List String → Bool
  | [], _ => true
  | _ :: _, [] => false
  | a :: as, b :: bs => if a = b then partsNotAfter as bs else a < b

def notAfter (p q : Path) : Bool := partsNotAfter p.parts q.parts

end Path
end UiMarkup
