import UiMarkup.Xml.Entity

/-!
The root element and all inside it, as a sequence of events: elements begin and end,
and nothing else counts.
-/

namespace UiMarkup.Xml

/-- An element begins or ends; the offsets are where its tag begins. For a tag that does both, the
element ends behind it. -/
inductive Event
  | start (name : String) (attributes : List (String × String)) (offset : Nat)
  | finish (offset : Nat)
  deriving DecidableEq, Repr

/-- An attribute as it is written, with the place of its name. -/
structure RawAttribute where
  name : String
  offset : Nat
  value : List Piece

/-- A start tag after its angle bracket. One that is empty is an end tag too. -/
structure StartTag where
  name : String
  attributes : List RawAttribute
  isEmpty : Bool

/-! ### Tags -/

/-- The value of an attribute, up to its closing quote. -/
def quotedPieces (e : Ending) (quote : Char) (cs : List Cell) :
    Except Stop (Taken (List Piece) cs.length) :=
  match cs with
  | [] => .error e.stop
  | c :: cs =>
    if c.char = quote then .ok (.one [] c cs)
    else if c.char = '<' then .error (.invalid c.offset)
    else if c.char = '&' then do
      let r ← reference e cs
      let more ← quotedPieces e quote r.rest
      return ((more.map (.reference r.value c.offset :: ·)).widen r.le).behind c
    else do
      let more ← quotedPieces e quote cs
      return (more.map (.char c.char :: ·)).behind c
  termination_by cs.length
  decreasing_by
  · exact Nat.lt_succ_of_le r.le
  · exact Nat.lt_succ_self _

/-- The value of an attribute with its quotes, which blanks may precede. -/
def attributeLiteral (e : Ending) (cs : List Cell) : Except Stop (Taken (List Piece) cs.length) :=
  let spaces := skipSpaces cs
  match h : spaces.rest with
  | [] => .error e.stopAtSign
  | c :: rest =>
    if c.char = '"' ∨ c.char = '\'' then do
      let value ← quotedPieces e c.char rest
      return value.widen (by have := spaces.le; rw [h] at this; simp at this; omega)
    else .error (.invalid c.offset)

/-- An attribute. -/
def rawAttribute (e : Ending) (cs : List Cell) : Except Stop (Taken RawAttribute cs.length) := do
  let n ← name e cs
  let offset := (cs.head?.map Cell.offset).getD 0
  match n.rest with
  | [] => throw e.stop
  | _ :: _ =>
    let spaces := skipSpaces n.rest
    let equals ← sign e '=' spaces.rest
    let value ← attributeLiteral e equals.rest
    return ⟨⟨String.ofList (textOf n.value), offset, value.value⟩, value.rest,
      Nat.le_trans value.le (Nat.le_trans equals.le (Nat.le_trans spaces.le n.le))⟩

/-- The end of a start tag, from its last sign or signs on. -/
def tagEnd (e : Ending) (c : Cell) (cs : List Cell) : Except Stop (Taken Bool cs.length) :=
  if c.char = '>' then .ok (.nothing false cs)
  else if c.char = '/' then do
    let close ← sign e '>' cs
    return close.map fun _ => true
  else .error (.invalid c.offset)

/-- The attributes of a tag and its end, from a place where a blank or the end must come; `stop` is
for the case that the characters run out there. -/
def attributesAndEnd (e : Ending) (stop : Stop) (cs : List Cell) :
    Except Stop (Taken (List RawAttribute × Bool) cs.length) :=
  match cs with
  | [] => .error stop
  | c :: cs =>
    if c.isSpace then
      let spaces := skipSpaces cs
      match h : spaces.rest with
      | [] => .error e.stop
      | d :: rest =>
        have bound : (d :: rest).length ≤ cs.length := h ▸ spaces.le
        if d.startsName then do
          let a ← rawAttribute e (d :: rest)
          let more ← attributesAndEnd e e.stopAtSign a.rest
          return ⟨(a.value :: more.value.1, more.value.2), more.rest,
            by have := a.le; have := more.le; simp only [List.length_cons] at *; omega⟩
        else do
          let last ← tagEnd e d rest
          return ⟨([], last.value), last.rest,
            by have := last.le; simp only [List.length_cons] at *; omega⟩
    else do
      let last ← tagEnd e c cs
      return (last.map ([], ·)).behind c
  termination_by cs.length
  decreasing_by have := a.le; simp only [List.length_cons] at *; omega

/-- A start tag after its angle bracket. -/
def startTag (e : Ending) (cs : List Cell) : Except Stop (Taken StartTag cs.length) := do
  let n ← name e cs
  let more ← attributesAndEnd e e.stop n.rest
  return ⟨⟨String.ofList (textOf n.value), more.value.1, more.value.2⟩, more.rest,
    Nat.le_trans more.le n.le⟩

/-- An end tag after its slash. -/
def endTag (e : Ending) (cs : List Cell) : Except Stop (Taken String cs.length) := do
  let n ← name e cs
  match n.rest with
  | [] => throw e.stop
  | c :: _ =>
    if c.isSpace then do
      let spaces := skipSpaces n.rest
      let close ← sign e '>' spaces.rest
      return ⟨String.ofList (textOf n.value), close.rest,
        Nat.le_trans close.le (Nat.le_trans spaces.le n.le)⟩
    else do
      let close ← sign e '>' n.rest
      return ⟨String.ofList (textOf n.value), close.rest, Nat.le_trans close.le n.le⟩

/-! ### Values -/

/-- The values of the written attributes, no two of which have one name. -/
def attributeValues (d : Doctype) (element : String) (tagOffset : Nat) :
    List String → List RawAttribute → Except Error (List (String × String))
  | _, [] => .ok []
  | seen, a :: more =>
    if seen.contains a.name then .error ⟨.duplicateAttribute, a.offset⟩
    else
      match attributeValue d (d.isTokenized element a.name) a.value with
      | .error trouble => .error (trouble.error tagOffset)
      | .ok value =>
        (attributeValues d element tagOffset (a.name :: seen) more).map ((a.name, value) :: ·)

/-- The declared defaults of the attributes that are not written. -/
def defaultValues (d : Doctype) (element : String) (written : List (String × String)) :
    List (String × String) :=
  (d.declaredFor element).filterMap fun a =>
    if written.any (·.1 = a.name) then none else a.default.map (a.name, ·)

def allAttributes (d : Doctype) (tag : StartTag) (tagOffset : Nat) :
    Except Error (List (String × String)) := do
  let written ← attributeValues d tag.name tagOffset [] tag.attributes
  return written ++ defaultValues d tag.name written

/-! ### Content -/

/-- What stands between two tags, after the first sign of it: something without a meaning here, or
an end tag with the place of its name. -/
inductive Inset
  | nothing
  | declaration
  | endTag (name : String) (offset : Nat)
  | cdata

/-- The offset at which some characters begin, or would begin if there were more. -/
def nextOffset (size : Nat) (e : Ending) : List Cell → Nat
  | c :: _ => c.offset
  | [] => match e with
    | .finished => size
    | .invalid offset _ => offset
    | .truncated offset => offset
    | .halved offset => offset

def cdataOpen : List Char := ['C', 'D', 'A', 'T', 'A', '[']

/-- Signs that must come next, one after the other. -/
def signs (e : Ending) : List Char → (cs : List Cell) → Except Stop (Taken Unit cs.length)
  | [], cs => .ok (.nothing () cs)
  | s :: more, cs => do
    let one ← sign e s cs
    let rest ← signs e more one.rest
    return rest.widen one.le

/-- What follows an angle bracket, except for a start tag. The opening of a section is looked for
where there is room for it, of signs as long as the one before. -/
def inset (e : Ending) (size : Nat) (c : Cell) (cs : List Cell) :
    Except Stop (Taken Inset cs.length) :=
  if c.char = '/' then do
    let t ← endTag e cs
    return t.map fun name => .endTag name ((cs.head?.map Cell.offset).getD size)
  else if c.char = '?' then do
    let i ← instruction e cs
    return i.map fun i => if i.isDeclaration then .declaration else .nothing
  else if c.char = '!' then
    match cs with
    | [] => .error e.stopAtSign
    | d :: ds =>
      if d.char = '-' then do
        let body ← comment e ds
        return (body.map fun _ => .nothing).behind d
      else if d.char = '[' then
        if size < nextOffset size e ds + cdataOpen.length * (d.offset - c.offset) then
          .error .unclosed
        else do
          let mark ← signs e cdataOpen ds
          return (mark.map fun _ => .cdata).behind d
      else .error (.invalid d.offset)
  else .error (.invalid c.offset)

/-- The rest of a section of plain characters, after its opening. -/
def cdataRest (e : Ending) (size : Nat) : (cs : List Cell) → Except Error (Taken Unit cs.length)
  | [] =>
    match e with
    | .finished => .error ⟨.unclosedCdata, size⟩
    | .invalid offset _ => .error ⟨.invalidToken, offset⟩
    | .truncated offset => .error ⟨.partialCharacter, offset⟩
    | .halved offset => .error ⟨.unclosedCdata, offset⟩
  | c :: cs =>
    match cs with
    | [] =>
      if e.stop = .unclosed ∧ (c.char = ']' ∨ c.char = '\r') then .error ⟨.unclosedCdata, c.offset⟩
      else (cdataRest e size []).map (·.widen (by simp))
    | [d] =>
      if e.stop = .unclosed ∧ c.char = ']' ∧ d.char = ']' then .error ⟨.unclosedCdata, c.offset⟩
      else (cdataRest e size [d]).map (·.widen (by simp))
    | d :: g :: more =>
      if c.char = ']' ∧ d.char = ']' ∧ g.char = '>' then
        .ok ⟨(), more, by simp only [List.length_cons]; omega⟩
      else (cdataRest e size (d :: g :: more)).map (·.widen (by simp))

/-- Where characters come from: the document, or an entity that is referred to at some place. The
names are those of the entities that are open. -/
structure Origin where
  ending : Ending
  size : Nat
  reference : Option Nat
  opened : List String

/-- The place in the document of an offset. -/
def Origin.place (o : Origin) (offset : Nat) : Nat := o.reference.getD offset

def Origin.error (o : Origin) (err : Error) : Error := ⟨err.fault, o.place err.offset⟩

/-- The end of the characters inside elements: for an entity, all elements that it
begins must have ended. -/
def Origin.finish (o : Origin) (opened : List String) (offset : Nat) : Except Error Unit :=
  if o.reference.isNone then .error ⟨.noElement, offset⟩
  else if opened.isEmpty then .ok () else .error (o.error ⟨.asynchronousEntity, offset⟩)

/-- What runs out at the end of the characters. -/
def Origin.runOut (o : Origin) (opened : List String) : Except Error Unit :=
  match o.ending with
  | .finished => o.finish opened o.size
  | .invalid offset _ => .error (o.error ⟨.invalidToken, offset⟩)
  | .truncated offset => .error (o.error ⟨.partialCharacter, offset⟩)
  | .halved offset => .error (o.error ⟨.unclosedToken, offset⟩)

/-- The text of an entity referred to in content; one outside the document has none. -/
def contentText (d : Doctype) (opened : List String) (entity : String) :
    Except Fault (Option (List Char)) :=
  match entityText d opened entity with
  | .error .externalEntityInAttribute => .ok none
  | r => r

/-- The place that counts as the end where the last character may belong to a line end or to the
closing of a section. -/
def Origin.cutShort? (o : Origin) (c : Cell) : Option Nat :=
  if o.ending.stop ≠ .unclosed then none
  else if c.char = '\r' then some c.offset
  else if c.char = ']' then some o.size
  else none

/-- The place of the last sign of the closing of a section, which may not stand in content. -/
def strayClose? : List Cell → Option Nat
  | a :: b :: c :: _ => if a.char = ']' ∧ b.char = ']' ∧ c.char = '>' then some c.offset else none
  | _ => none

/-- Reads content. The names are those of the elements that have begun in these characters and not
ended; when the last one ends, the content of the document is over, and the rest is given back. The
text of an entity is read by what is given for it, if entities may nest any deeper. -/
def contentBy (d : Doctype) (enter : Option (Origin → List Cell → Except Error (List Event)))
    (o : Origin) (opened : List String) (cs : List Cell) : Except Error (List Event × List Cell) :=
  match cs with
  | [] => do
    o.runOut opened
    return ([], [])
  | c :: cs =>
    if c.char = '<' then
      match cs with
      | [] => .error (o.error (o.ending.stop.error c.offset))
      | n :: ns =>
        if n.startsName then
          match startTag o.ending (n :: ns) with
          | .error stop => .error (o.error (stop.error c.offset))
          | .ok tag => do
            let attributes ← (allAttributes d tag.value c.offset).mapError o.error
            let begins := Event.start tag.value.name attributes (o.place c.offset)
            if tag.value.isEmpty then do
              let ends := Event.finish (o.place (nextOffset o.size o.ending tag.rest))
              if opened.isEmpty && o.reference.isNone then return ([begins, ends], tag.rest)
              else do
                let (more, rest) ← contentBy d enter o opened tag.rest
                return (begins :: ends :: more, rest)
            else do
              let (more, rest) ← contentBy d enter o (tag.value.name :: opened) tag.rest
              return (begins :: more, rest)
        else
          match inset o.ending o.size n ns with
          | .error stop => .error (o.error (stop.error c.offset))
          | .ok i =>
            match i.value, opened with
            | .nothing, _ => contentBy d enter o opened i.rest
            | .declaration, _ => .error (o.error ⟨.misplacedDeclaration, c.offset⟩)
            | .cdata, _ =>
              match cdataRest o.ending o.size i.rest with
              | .error err => .error (o.error err)
              | .ok after => contentBy d enter o opened after.rest
            | .endTag _ _, [] => .error (o.error ⟨.asynchronousEntity, c.offset⟩)
            | .endTag name offset, current :: outer =>
              if name ≠ current then .error (o.error ⟨.mismatchedTag, offset⟩)
              else if outer.isEmpty && o.reference.isNone then .ok ([.finish c.offset], i.rest)
              else do
                let (more, rest) ← contentBy d enter o outer i.rest
                return (.finish (o.place c.offset) :: more, rest)
    else if c.char = '&' then
      match reference o.ending cs with
      | .error stop => .error (o.error (stop.error c.offset))
      | .ok r =>
        match r.value with
        | .character none => .error (o.error ⟨.invalidCharacterNumber, c.offset⟩)
        | .character (some _) => contentBy d enter o opened r.rest
        | .entity name =>
          if (predefined? name).isSome then contentBy d enter o opened r.rest
          else
            match contentText d o.opened name, enter with
            | .error fault, _ => .error (o.error ⟨fault, c.offset⟩)
            | .ok none, _ => contentBy d enter o opened r.rest
            | .ok (some _), none => .error (o.error ⟨.recursiveEntity, c.offset⟩)
            | .ok (some text), some read => do
              let input := Input.ofText text
              let inside ← read ⟨input.ending, input.size, some (o.place c.offset),
                  name :: o.opened⟩ input.cells
              let (more, rest) ← contentBy d enter o opened r.rest
              return (inside ++ more, rest)
    else
      match strayClose? (c :: cs) with
      | some offset => .error (o.error ⟨.invalidToken, offset⟩)
      | none =>
        match cs, o.cutShort? c with
        | [], some offset => do
          o.finish opened offset
          return ([], [])
        | cs, _ => contentBy d enter o opened cs
  termination_by cs.length
  decreasing_by
  · have := tag.le; simp only [List.length_cons] at *; omega
  · have := tag.le; simp only [List.length_cons] at *; omega
  · have := i.le; simp only [List.length_cons]; omega
  · have := i.le; have := after.le; simp only [List.length_cons]; omega
  · have := i.le; simp only [List.length_cons]; omega
  · have := r.le; simp only [List.length_cons]; omega
  · have := r.le; simp only [List.length_cons]; omega
  · have := r.le; simp only [List.length_cons]; omega
  · have := r.le; simp only [List.length_cons]; omega
  · simp

/-- How the text of an entity is read where entities nest as deep as the fuel goes. -/
def entityContent (d : Doctype) : Nat → Option (Origin → List Cell → Except Error (List Event))
  | 0 => none
  | fuel + 1 => some fun inner cells =>
    (contentBy d (entityContent d fuel) inner [] cells).map Prod.fst

/-- Reads content in which entities nest as deep as the fuel goes. -/
def content (d : Doctype) (fuel : Nat) :
    Origin → List String → List Cell → Except Error (List Event × List Cell) :=
  contentBy d (entityContent d fuel)

end UiMarkup.Xml
