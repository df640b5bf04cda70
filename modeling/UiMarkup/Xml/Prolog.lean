import UiMarkup.Xml.Entity
import UiMarkup.Xml.PrologToken

/-!
The grammar of the prolog and of the document type, as what may come next at each place, and
what the declarations say.
-/

namespace UiMarkup.Xml

/-- An attribute of an element that is being declared. -/
structure Owner where
  element : String
  name : String

/-- How the parts of a group are separated, once that is known. -/
inductive Separator
  | choice | sequence
  deriving DecidableEq, Repr

/-- What is expected next. Places in the declaration of an entity carry the entity's name, unless it
is a parameter entity. -/
inductive Place
  | prolog (withDoctype : Bool)
  | doctypeName
  | doctypeKind
  | doctypePublicId
  | doctypeSystemId
  | doctypeSubset
  | doctypeEnd
  | subset
  | entityName
  | parameterName
  | entityValue (entity : Option String)
  | entityPublicId (entity : Option String)
  | entitySystemId (entity : Option String)
  | entityFormat (entity : Option String)
  | entityNotation (entity : Option String)
  | notationName
  | notationKind
  | notationPublicId
  | notationSystemId
  | notationEnd
  | attributeElement
  | attributeName (element : String)
  | attributeType (owner : Owner)
  | choiceValue (owner : Owner)
  | choiceMore (owner : Owner)
  | formatOpen (owner : Owner)
  | formatName (owner : Owner)
  | formatMore (owner : Owner)
  | attributeDefault (owner : Owner) (tokenized : Bool)
  | fixedValue (owner : Owner) (tokenized : Bool)
  | elementName
  | contentKind
  | contentFirst
  | mixedMore
  | mixedName
  | mixedNext
  | contentItem (groups : List (Option Separator))
  | contentMore (groups : List (Option Separator))
  | close

/-- The types of attributes in whose values blanks only separate words. -/
def tokenizedTypes : List String :=
  ["ID", "IDREF", "IDREFS", "ENTITY", "ENTITIES", "NMTOKEN", "NMTOKENS"]

/-- The characters of public identifiers. -/
def isPublicIdChar (c : Char) : Bool :=
  c.isAlphanum || " \r\n-'()+,./:=?;!*#@$_%".toList.contains c

namespace Place

/-- The error for a token that is not expected. -/
def unexpected (t : PrologToken) (offset : Nat) : Error :=
  match t with
  | .declaration => ⟨.misplacedDeclaration, offset⟩
  | .parameterReference => ⟨.parameterReference, offset⟩
  | _ => ⟨.syntaxError, offset⟩

def checkPublicId (cs : List Cell) : Except Error Unit :=
  match cs.find? fun c => !isPublicIdChar c.char with
  | some c => .error ⟨.publicIdCharacter, c.offset⟩
  | none => .ok ()

/-- The value of a declared entity. -/
def defineEntity (d : Doctype) (entity : Option String) (value : List Cell) (cut : Option Nat) :
    Except Error Doctype :=
  if d.ignores then .ok d
  else do
    let text ← replacementText value
    if let some offset := cut then throw ⟨.invalidToken, offset⟩
    return match entity with
      | some name => d.declareEntity name (.internal text)
      | none => d

def keepOutside (d : Doctype) (entity : Option String) : Doctype :=
  match entity with
  | some name => d.declareEntity name .external
  | none => d

/-- The entity, which is known to be outside the document, is in a format of its own. -/
def markUnparsed (d : Doctype) (entity : Option String) : Doctype :=
  match entity with
  | some name =>
    if d.entities.get? name = some .external then
      { d with entities := d.entities.put name .unparsed }
    else d
  | none => d

/-- The default value of a declared attribute. -/
def defineDefault (d : Doctype) (owner : Owner) (tokenized : Bool) (value : List Cell)
    (cut : Option Nat) (offset : Nat) : Except Error Doctype :=
  if d.ignores then .ok d
  else
    match attributeValue d tokenized
      (pieces value ++ cut.toList.map fun offset => .broken (.invalid offset)) with
    | .error trouble => .error (trouble.error offset)
    | .ok text => .ok (d.declareAttribute owner.element ⟨owner.name, tokenized, some text⟩)

/-- Part of the document type is not read. -/
def skipParameter (d : Doctype) : Doctype :=
  { d with skipsExternal := true, ignores := !d.standalone }

def declarationPlace? : String → Option Place
  | "ENTITY" => some .entityName
  | "ATTLIST" => some .attributeElement
  | "ELEMENT" => some .elementName
  | "NOTATION" => some .notationName
  | _ => none

/-- The next place inside a content model. -/
def inContent (t : PrologToken) : Place → Option Place
  | .contentKind =>
    match t with
    | .name "EMPTY" none => some .close
    | .name "ANY" none => some .close
    | .openParen => some .contentFirst
    | _ => none
  | .contentFirst =>
    match t with
    | .hashName "PCDATA" => some .mixedMore
    | .openParen => some (.contentItem [none, none])
    | .name _ _ => some (.contentMore [none])
    | _ => none
  | .mixedMore =>
    match t with
    | .closeParen none => some .close
    | .closeParen (some .repeated) => some .close
    | .bar => some .mixedName
    | _ => none
  | .mixedName =>
    match t with
    | .name _ none => some .mixedNext
    | _ => none
  | .mixedNext =>
    match t with
    | .closeParen (some .repeated) => some .close
    | .bar => some .mixedName
    | _ => none
  | .contentItem groups =>
    match t with
    | .openParen => some (.contentItem (none :: groups))
    | .name _ _ => some (.contentMore groups)
    | _ => none
  | .contentMore groups =>
    match t, groups with
    | .closeParen _, _ :: g :: more => some (.contentMore (g :: more))
    | .closeParen _, _ => some .close
    | .comma, g :: more =>
      if g = some .choice then none else some (.contentItem (some .sequence :: more))
    | .bar, g :: more =>
      if g = some .sequence then none else some (.contentItem (some .choice :: more))
    | _, _ => none
  | _ => none

/-- The next place where the token declares nothing. -/
def plain (t : PrologToken) : Place → Option Place
  | .prolog withDoctype =>
    match t with
    | .instruction => some (.prolog withDoctype)
    | .comment => some (.prolog withDoctype)
    | .declarationOpen "DOCTYPE" => if withDoctype then some .doctypeName else none
    | _ => none
  | .doctypeName =>
    match t with
    | .name _ none => some .doctypeKind
    | _ => none
  | .doctypeKind =>
    match t with
    | .openBracket => some .subset
    | .declarationClose => some (.prolog false)
    | .name "SYSTEM" none => some .doctypeSystemId
    | .name "PUBLIC" none => some .doctypePublicId
    | _ => none
  | .doctypeSubset =>
    match t with
    | .openBracket => some .subset
    | .declarationClose => some (.prolog false)
    | _ => none
  | .doctypeEnd =>
    match t with
    | .declarationClose => some (.prolog false)
    | _ => none
  | .subset =>
    match t with
    | .declarationOpen keyword => declarationPlace? keyword
    | .instruction => some .subset
    | .comment => some .subset
    | .closeBracket => some .doctypeEnd
    | _ => none
  | .entityName =>
    match t with
    | .percent => some .parameterName
    | .name n none => some (.entityValue (some n))
    | _ => none
  | .parameterName =>
    match t with
    | .name _ none => some (.entityValue none)
    | _ => none
  | .entityValue e =>
    match t with
    | .name "SYSTEM" none => some (.entitySystemId e)
    | .name "PUBLIC" none => some (.entityPublicId e)
    | _ => none
  | .entityFormat e =>
    match t with
    | .declarationClose => some .subset
    | .name "NDATA" none => if e.isSome then some (.entityNotation e) else none
    | _ => none
  | .notationName =>
    match t with
    | .name _ none => some .notationKind
    | _ => none
  | .notationKind =>
    match t with
    | .name "SYSTEM" none => some .notationSystemId
    | .name "PUBLIC" none => some .notationPublicId
    | _ => none
  | .notationSystemId =>
    match t with
    | .literal _ _ => some .close
    | _ => none
  | .notationEnd =>
    match t with
    | .literal _ _ => some .close
    | .declarationClose => some .subset
    | _ => none
  | .attributeElement =>
    match t with
    | .name n none => some (.attributeName n)
    | _ => none
  | .attributeName element =>
    match t with
    | .declarationClose => some .subset
    | .name n none => some (.attributeType ⟨element, n⟩)
    | _ => none
  | .attributeType owner =>
    match t with
    | .openParen => some (.choiceValue owner)
    | .name "CDATA" none => some (.attributeDefault owner false)
    | .name "NOTATION" none => some (.formatOpen owner)
    | .name n none => if n ∈ tokenizedTypes then some (.attributeDefault owner true) else none
    | _ => none
  | .choiceValue owner =>
    match t with
    | .name _ none => some (.choiceMore owner)
    | .word => some (.choiceMore owner)
    | _ => none
  | .choiceMore owner =>
    match t with
    | .closeParen none => some (.attributeDefault owner true)
    | .bar => some (.choiceValue owner)
    | _ => none
  | .formatOpen owner =>
    match t with
    | .openParen => some (.formatName owner)
    | _ => none
  | .formatName owner =>
    match t with
    | .name _ none => some (.formatMore owner)
    | _ => none
  | .formatMore owner =>
    match t with
    | .closeParen none => some (.attributeDefault owner true)
    | .bar => some (.formatName owner)
    | _ => none
  | .elementName =>
    match t with
    | .name _ none => some .contentKind
    | _ => none
  | .close =>
    match t with
    | .declarationClose => some .subset
    | _ => none
  | place => inContent t place

/-- The next place, and what is declared by then. -/
def step (d : Doctype) (place : Place) (t : PrologToken) (offset : Nat) :
    Except Error (Place × Doctype) :=
  match place, t with
  | .doctypePublicId, .literal cs _ => do checkPublicId cs; return (.doctypeSystemId, d)
  | .doctypeSystemId, .literal _ _ => .ok (.doctypeSubset, { d with skipsExternal := true })
  | .subset, .parameterReference => .ok (.subset, skipParameter d)
  | .entityValue e, .literal cs cut => do return (.close, ← defineEntity d e cs cut)
  | .entityPublicId e, .literal cs _ => do checkPublicId cs; return (.entitySystemId e, d)
  | .entitySystemId e, .literal _ _ => .ok (.entityFormat e, keepOutside d e)
  | .entityNotation e, .name _ none => .ok (.close, markUnparsed d e)
  | .notationPublicId, .literal cs _ => do checkPublicId cs; return (.notationEnd, d)
  | .attributeDefault owner tokenized, .hashName "IMPLIED" =>
    .ok (.attributeName owner.element,
      d.declareAttribute owner.element ⟨owner.name, tokenized, none⟩)
  | .attributeDefault owner tokenized, .hashName "REQUIRED" =>
    .ok (.attributeName owner.element,
      d.declareAttribute owner.element ⟨owner.name, tokenized, none⟩)
  | .attributeDefault owner tokenized, .hashName "FIXED" => .ok (.fixedValue owner tokenized, d)
  | .attributeDefault owner tokenized, .literal cs cut => do
    return (.attributeName owner.element, ← defineDefault d owner tokenized cs cut offset)
  | .fixedValue owner tokenized, .literal cs cut => do
    return (.attributeName owner.element, ← defineDefault d owner tokenized cs cut offset)
  | place, t =>
    match plain t place with
    | some next => .ok (next, d)
    | none => .error (unexpected t offset)

/-- Follows all tokens. -/
def run (d : Doctype) (place : Place) : List (PrologToken × Nat) → Except Error (Place × Doctype)
  | [] => .ok (place, d)
  | (t, offset) :: more => do
    let (place, d) ← step d place t offset
    run d place more

end Place

/-- Reads everything before the root element: what is declared, and the
characters from the root on. -/
def readProlog (d : Doctype) (input : Input) : Except Error (Doctype × List Cell) := do
  let (tokens, ending) := prologTokens input.ending input.cells
  let (place, d) ← Place.run d (.prolog true) tokens
  match ending, place with
  | .root cells, .prolog _ => return (d, cells)
  | .root cells, _ => throw ⟨.syntaxError, (cells.head?.map Cell.offset).getD input.size⟩
  | .finished, _ => throw ⟨.noElement, input.size⟩
  | .failed error, _ => throw error

end UiMarkup.Xml
