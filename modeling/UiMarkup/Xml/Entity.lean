import UiMarkup.OrderedMap
import UiMarkup.Xml.Scan

/-!
What a document type declares, the texts of entities, and the values of attributes.
-/

namespace UiMarkup.Xml

/-- An entity: one with a text, or one that is kept outside the document, as a document or
in a format of its own. -/
inductive Entity
  | internal (text : List Char)
  | external
  | unparsed
  deriving DecidableEq, Repr

/-- A declared attribute: whether blanks in its value only separate words, and its default value. -/
structure Declared where
  name : String
  tokenized : Bool
  default : Option String
  deriving DecidableEq, Repr

/-- What is declared so far. Once an external part has been skipped, later declarations do not count
unless the document stands alone. -/
structure Doctype where
  entities : OrderedMap String Entity := []
  attributes : OrderedMap String (List Declared) := []
  skipsExternal : Bool := false
  standalone : Bool := false
  ignores : Bool := false

namespace Doctype

/-- Every entity that is used must be declared. -/
def isComplete (d : Doctype) : Bool := !d.skipsExternal || d.standalone

/-- The first declaration of an entity counts; the predefined ones cannot be declared again. -/
def declareEntity (d : Doctype) (name : String) (e : Entity) : Doctype :=
  if d.ignores || (predefined? name).isSome || d.entities.has name then d
  else { d with entities := d.entities.put name e }

def declaredFor (d : Doctype) (element : String) : List Declared :=
  (d.attributes.get? element).getD []

/-- The first declaration of an attribute of an element counts. -/
def declareAttribute (d : Doctype) (element : String) (a : Declared) : Doctype :=
  let known := d.declaredFor element
  if d.ignores || known.any (·.name = a.name) then d
  else { d with attributes := d.attributes.put element (known ++ [a]) }

/-- Blanks in the value of an attribute only separate words. -/
def isTokenized (d : Doctype) (element name : String) : Bool :=
  ((d.declaredFor element).find? (·.name = name)).any Declared.tokenized

end Doctype

/-- A piece of an attribute's value. The last piece may be one at which reading stops. -/
inductive Piece
  | char (c : Char)
  | reference (r : Reference) (offset : Nat)
  | broken (stop : Stop)

/-- The pieces of a text. -/
def pieces (cs : List Cell) : List Piece :=
  match cs with
  | [] => []
  | c :: cs =>
    if c.char = '<' then [.broken (.invalid c.offset)]
    else if c.char = '&' then
      match reference .finished cs with
      | .error .unclosed => [.broken (.invalid c.offset)]
      | .error stop => [.broken stop]
      | .ok r => .reference r.value c.offset :: pieces r.rest
    else .char c.char :: pieces cs
  termination_by cs.length
  decreasing_by
  · have := r.le; simp only [List.length_cons]; omega
  · simp

/-- A fault in a value. One inside an entity has no place of its own. -/
structure Trouble where
  fault : Fault
  offset : Option Nat

/-- The error of a fault, at a default place if it has none. -/
def Trouble.error (start : Nat) (t : Trouble) : Error := ⟨t.fault, t.offset.getD start⟩

/-- Puts a blank behind a value written backwards; in a tokenized one it must end a word. -/
def pushBlank (tokenized : Bool) (sofar : List Char) : List Char :=
  if tokenized && (sofar.isEmpty || sofar.head? == some ' ') then sofar else ' ' :: sofar

def pushChar (tokenized : Bool) (sofar : List Char) (c : Char) : List Char :=
  if c = ' ' then pushBlank tokenized sofar else c :: sofar

/-- The text of an entity that is referred to in a value, unless there is none and need not be. -/
def entityText (d : Doctype) (opened : List String) (name : String) :
    Except Fault (Option (List Char)) :=
  match d.entities.get? name with
  | none => if d.isComplete then .error .undefinedEntity else .ok none
  | some e =>
    if opened.contains name then .error .recursiveEntity
    else match e with
      | .unparsed => .error .binaryEntity
      | .external => .error .externalEntityInAttribute
      | .internal text => .ok (some text)

/-- The faults of references that have the place of the reference. -/
def Fault.isPlaced : Fault → Bool
  | .binaryEntity | .externalEntityInAttribute => true
  | _ => false

/-- Appends pieces to a value written backwards. Line ends and tabs become blanks, and
references what they stand for. The text of an entity is appended by what is given for it, if
entities may nest any deeper. -/
def appendBy (d : Doctype) (tokenized : Bool)
    (enter : Option (List String → List Char → List Char → Except Trouble (List Char)))
    (opened : List String) :
    List Char → List Piece → Except Trouble (List Char)
  | sofar, [] => .ok sofar
  | sofar, .char '\r' :: .char '\n' :: more =>
    appendBy d tokenized enter opened (pushBlank tokenized sofar) more
  | sofar, .char c :: more =>
    appendBy d tokenized enter opened (if isSpace c then pushBlank tokenized sofar else c :: sofar)
      more
  | _, .broken (.invalid offset) :: _ => .error ⟨.invalidToken, some offset⟩
  | _, .broken _ :: _ => .error ⟨.invalidToken, none⟩
  | sofar, .reference (.character (some c)) _ :: more =>
    appendBy d tokenized enter opened (pushChar tokenized sofar c) more
  | _, .reference (.character none) offset :: _ => .error ⟨.invalidCharacterNumber, some offset⟩
  | sofar, .reference (.entity name) offset :: more =>
    match predefined? name with
    | some c => appendBy d tokenized enter opened (c :: sofar) more
    | none =>
      match entityText d opened name, enter with
      | .error fault, _ => .error ⟨fault, if fault.isPlaced then some offset else none⟩
      | .ok none, _ => appendBy d tokenized enter opened sofar more
      | .ok (some _), none => .error ⟨.recursiveEntity, none⟩
      | .ok (some text), some append => do
        let sofar ← append (name :: opened) sofar text
        appendBy d tokenized enter opened sofar more

/-- How the text of an entity is appended where entities nest as deep as the fuel goes. A
fault in it has no place. -/
def appendEntity (d : Doctype) (tokenized : Bool) :
    Nat → Option (List String → List Char → List Char → Except Trouble (List Char))
  | 0 => none
  | fuel + 1 => some fun opened sofar text =>
    (appendBy d tokenized (appendEntity d tokenized fuel) opened sofar
      (pieces (Input.ofText text).cells)).mapError fun t => ⟨t.fault, none⟩

/-- The value that pieces make up. -/
def attributeValue (d : Doctype) (tokenized : Bool) (ps : List Piece) : Except Trouble String := do
  let backwards ← appendBy d tokenized (appendEntity d tokenized (d.entities.length + 1)) [] [] ps
  let trimmed := if tokenized && backwards.head? == some ' ' then backwards.tail else backwards
  return String.ofList trimmed.reverse

/-- The replacement text of an entity whose literal is given: characters that are given by their
numbers are replaced, and line ends become line feeds. -/
def replacementText (cs : List Cell) : Except Error (List Char) :=
  match cs with
  | [] => .ok []
  | c :: cs =>
    if c.char = '&' then
      match reference .finished cs with
      | .error (.invalid offset) => .error ⟨.invalidToken, offset⟩
      | .error _ => .error ⟨.invalidToken, c.offset⟩
      | .ok r =>
        match r.value with
        | .character none => .error ⟨.invalidCharacterNumber, c.offset⟩
        | .character (some d) => (replacementText r.rest).map (d :: ·)
        | .entity name => (replacementText r.rest).map ('&' :: name.toList ++ ';' :: ·)
    else if c.char = '%' then
      match cs with
      | [] => .error ⟨.invalidToken, c.offset⟩
      | d :: ds =>
        match name .finished (d :: ds) with
        | .error (.invalid offset) => .error ⟨.invalidToken, offset⟩
        | .error _ => .error ⟨.invalidToken, c.offset⟩
        | .ok n =>
          match n.rest with
          | [] => .error ⟨.invalidToken, c.offset⟩
          | s :: _ =>
            if s.char = ';' then .error ⟨.parameterReference, c.offset⟩
            else .error ⟨.invalidToken, s.offset⟩
    else if c.char = '\r' then
      match cs with
      | ⟨'\n', _, _, _⟩ :: cs => (replacementText cs).map ('\n' :: ·)
      | cs => (replacementText cs).map ('\n' :: ·)
    else (replacementText cs).map (c.char :: ·)
  termination_by cs.length
  decreasing_by
  · have := r.le; simp only [List.length_cons]; omega
  · have := r.le; simp only [List.length_cons]; omega
  · simp only [List.length_cons]; omega
  · simp_wf
  · simp

end UiMarkup.Xml
