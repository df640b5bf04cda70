import UiMarkup.Data.Toml.Value

/-!
TOML files: statements on lines. A header opens a table for the pairs after it. No table is opened
twice, no key is written twice, and what is written in one piece is not added to.
-/

namespace UiMarkup.Toml

/-- A file that is being read: its data, the table that is open, the keys of tables that may not
be opened again, those that may not be once the next header comes, and the keys of values
written in one piece. -/
structure Reading where
  data : OrderedMap String Datum := []
  header : List String := []
  closed : List (List String) := []
  pending : List (List String) := []
  frozen : List (List String) := []

namespace Reading

/-- The keys of the tables around the value of a dotted key. -/
def outerKeys (header key : List String) : List (List String) :=
  (List.range (key.length - 1)).map fun i => header ++ key.take (i + 1)

/-- Adds a pair to the open table. -/
def addPair (r : Reading) (key : List String) (value : Datum) : Option Reading := do
  let (parents, last) := splitKey key
  let outer := outerKeys r.header key
  let place := r.header ++ parents
  if outer.any r.closed.contains || isFrozen r.frozen place then none
  else
    let data ← changeNest true (addNew last value) place r.data
    return { r with
      data
      pending := outer ++ r.pending
      frozen := if isNest value then (r.header ++ key) :: r.frozen else r.frozen }

/-- A header has come. -/
def closePending (r : Reading) : Reading :=
  { r with closed := r.pending ++ r.closed, pending := [] }

/-- Opens a table. -/
def openTable (r : Reading) (key : List String) : Option Reading :=
  if r.closed.contains key || isFrozen r.frozen key then none
  else do
    let data ← changeNest true some key r.data
    return { r with data, header := key, closed := key :: r.closed }

/-- Adds an empty table to the list under a key. -/
def addItem (key : String) (t : OrderedMap String Datum) : Option (OrderedMap String Datum) :=
  match t.get? key with
  | none => some (t.put key (.list [.table []]))
  | some (.list items) => some (t.put key (.list (items ++ [.table []])))
  | some _ => none

/-- Opens a new table in a list of tables. What was said about the one before
does not count for it. -/
def openItem (r : Reading) (key : List String) : Option Reading :=
  if isFrozen r.frozen key then none
  else do
    let (parents, last) := splitKey key
    let data ← changeNest true (addItem last) parents r.data
    return { r with
      data, header := key
      closed := key :: r.closed.filter fun k => !key.isPrefixOf k
      frozen := r.frozen.filter fun k => !key.isPrefixOf k }

/-- A header after its first bracket. -/
def readHeader (r : Reading) (cs : List Char) : Option (Reading × List Char) :=
  match cs with
  | '[' :: cs => do
    let (key, rest) ← key? cs.length (skip cs)
    let r ← r.closePending.openItem key
    match rest with
    | ']' :: ']' :: rest => some (r, rest)
    | _ => none
  | cs => do
    let (key, rest) ← key? cs.length (skip cs)
    let r ← r.closePending.openTable key
    match rest with
    | ']' :: rest => some (r, rest)
    | _ => none

/-- One statement, or none on an empty line, and what follows. -/
def readStatement (r : Reading) (cs : List Char) : Except Fault (Reading × List Char) :=
  match cs with
  | [] => .ok (r, [])
  | '\n' :: _ => .ok (r, cs)
  | '#' :: _ => .ok (r, cs)
  | '[' :: rest => orMalformed (r.readHeader rest)
  | cs => do
    let ((key, value), rest) ← readPair (cs.length + 1) cs
    return (← orMalformed (r.addPair key value), rest)

/-- The statements up to the end, each on a line that may end in a comment. -/
def readAll : Nat → Reading → List Char → Except Fault Reading
  | 0, _, _ => .error .malformed
  | fuel + 1, r, cs => do
    let (r, rest) ← r.readStatement (skip cs)
    match ← orMalformed (skipComment? (skip rest)) with
    | [] => return r
    | '\n' :: rest => readAll fuel r rest
    | _ => .error .malformed

end Reading

/-- The table that a whole text is. -/
def parse (text : List Char) : Except Fault Datum := do
  let source := unifyBreaks text
  let r ← Reading.readAll (source.length + 1) {} source
  return .table r.data

end UiMarkup.Toml
