import UiMarkup.Workspace.Path

/-!
Patterns of file names. A star stands for any text, a question mark for any character, and brackets
for one of the characters between them. Stars do not reach over slashes.
-/

namespace UiMarkup

/-- Characters between brackets: one by one, or from a first to a last one. -/
inductive CharSpan
  | one (c : Char)
  | range (first last : Char)
  deriving DecidableEq, Repr

def CharSpan.holds (c : Char) : CharSpan → Bool
  | .one d => c == d
  | .range first last => first ≤ c && c ≤ last

inductive GlobItem
  | char (c : Char)
  | anyChar
  | anyText
  | charSet (negated : Bool) (spans : List CharSpan)
  deriving DecidableEq, Repr

namespace GlobItem

/-- The spans between brackets. A hyphen between two characters makes a range of them. -/
def spans : List Char → List CharSpan
  | a :: '-' :: b :: cs => .range a b :: spans cs
  | a :: cs => .one a :: spans cs
  | [] => []

/-- The text between an opening bracket and the closing one, and what follows. A bracket at the very
beginning does not close. -/
def bracketBody? : List Char → Option (List Char × List Char)
  | ']' :: cs => (Text.cut? ']' cs).map fun (body, rest) => (']' :: body, rest)
  | cs => Text.cut? ']' cs

/-- The set after an opening bracket, and what follows. -/
def charSet? : List Char → Option (GlobItem × List Char)
  | '!' :: cs => (bracketBody? cs).map fun (body, rest) => (.charSet true (spans body), rest)
  | cs => (bracketBody? cs).map fun (body, rest) => (.charSet false (spans body), rest)

/-- The first item and what follows. -/
def read (c : Char) (cs : List Char) : GlobItem × List Char :=
  if c = '*' then (.anyText, cs)
  else if c = '?' then (.anyChar, cs)
  else if c = '[' then (charSet? cs).getD (.char c, cs)
  else (.char c, cs)

/-- The items of a pattern; each takes at least one character. -/
def readAll : Nat → List Char → List GlobItem
  | 0, _ => []
  | _, [] => []
  | fuel + 1, c :: cs =>
    let (item, rest) := read c cs
    item :: readAll fuel rest

/-- Whether one character is what an item other than any text stands for. -/
def holds (c : Char) : GlobItem → Bool
  | .char d => c == d
  | .anyChar => true
  | .anyText => false
  | .charSet negated spans => spans.any (CharSpan.holds c) != negated

mutual

def matchesAll : List GlobItem → List Char → Bool
  | [], cs => cs.isEmpty
  | .anyText :: items, cs => matchesSome items cs
  | _ :: _, [] => false
  | item :: items, c :: cs => item.holds c && matchesAll items cs
  termination_by items cs => (items.length, cs.length, 0)

/-- The items match some end of a text. -/
def matchesSome (items : List GlobItem) : List Char → Bool
  | [] => matchesAll items []
  | c :: cs => matchesAll items (c :: cs) || matchesSome items cs
  termination_by cs => (items.length, cs.length, 1)

end

end GlobItem

/-- Whether a pattern stands for a text. -/
def globMatches (pattern text : String) : Bool :=
  GlobItem.matchesAll (GlobItem.readAll pattern.length pattern.toList) text.toList

namespace Path

/-- Whether each pattern stands for the component in its place, where both lists
begin with the last ones. -/
def endsMatch : List String → List String → Bool
  | [], _ => true
  | _ :: _, [] => false
  | pattern :: patterns, part :: parts => globMatches pattern part && endsMatch patterns parts

/-- The components, where the root counts as the first one of an absolute path. -/
def allParts (p : Path) : List String := if p.isAbsolute then "/" :: p.parts else p.parts

/-- Whether a pattern stands for the last components of a path; one with a slash in front, for all
of an absolute path. An empty pattern is none at all. -/
def matches? (p : Path) (pattern : String) : Option Bool :=
  let q := ofText pattern
  if q.isAbsolute then
    some (p.isAbsolute && p.parts.length =
      q.parts.length && endsMatch q.parts.reverse p.parts.reverse)
  else if q.parts.isEmpty then none
  else some (endsMatch q.parts.reverse p.allParts.reverse)

end Path
end UiMarkup
