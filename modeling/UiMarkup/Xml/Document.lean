import UiMarkup.Xml.Content
import UiMarkup.Xml.Declaration
import UiMarkup.Xml.Prolog

/-!
XML documents from their bytes: a byte order mark, a declaration that may name the encoding, the
prolog, the root element, and nothing but comments and instructions after it. A document is in
UTF-8, in UTF-16 or in a page of one byte a character; encodings of several bytes a character are
refused. Nothing bounds its size, what its entities add to it, or the depth to which its elements
nest: memory or a stack that runs out is no part of the answer.
-/

namespace UiMarkup.Xml

/-- What a document holds, and whether it has an XML declaration. -/
structure Document where
  events : List Event
  hasDeclaration : Bool

/-- Why a document cannot be read: for an error, the encoding it was read in counts for its line and
column. -/
inductive Refusal
  | malformed (error : Error) (encoding : Encoding)
  | unknownEncoding (fault : CodecFault)
  deriving DecidableEq, Repr

namespace Document

/-- Bytes too few to tell what they begin. -/
def isFragment (bytes : List UInt8) : Bool :=
  bytes ∈ [[0x00], [0xEF], [0xFE], [0xFF], [0xEF, 0xBB]]

/-- The encoding that the first bytes tell, and where the characters begin
behind a byte order mark. -/
def detect : List UInt8 → Encoding × Nat
  | 0xFE :: 0xFF :: _ => (.utf16 .big, 2)
  | 0xFF :: 0xFE :: _ => (.utf16 .little, 2)
  | 0xEF :: 0xBB :: 0xBF :: _ => (.utf8, 3)
  | 0x00 :: _ => (.utf16 .big, 0)
  | _ :: 0x00 :: _ => (.utf16 .little, 0)
  | _ => (.utf8, 0)

/-- The instruction at the very beginning, where it is an XML declaration, and
the characters after it. -/
def declaration? (input : Input) : Except Stop (Option (List Cell × List Cell)) :=
  match input.cells with
  | ⟨'<', _, _, _⟩ :: ⟨'?', _, _, _⟩ :: cs => do
    let i ← instruction input.ending cs
    return if i.value.isDeclaration then some (i.value.body, i.rest) else none
  | _ => .ok none

/-- How the characters behind the root end. Half a unit behind a carriage return does not count. -/
def epilogEnding (e : Ending) (cs : List Cell) : Ending :=
  match e with
  | .halved _ => if cs.getLast?.any (·.char = '\r') then .finished else e
  | e => e

/-- Only comments and instructions may follow the root. -/
def checkEpilog (e : Ending) (cs : List Cell) : Except Error Unit :=
  let (tokens, ending) := prologTokens (epilogEnding e cs) cs
  match tokens.find? fun p => !(p.1 matches .comment | .instruction), ending with
  | some p, _ => .error ⟨.junkAfterRoot, p.2⟩
  | none, .root cells => .error ⟨.junkAfterRoot, (cells.head?.map Cell.offset).getD 0⟩
  | none, .finished => .ok ()
  | none, .failed error => .error error

/-- Reads all after the XML declaration. -/
def readBody (standalone : Bool) (input : Input) : Except Error (List Event) := do
  let (d, cells) ← readProlog { standalone } input
  let origin : Origin := ⟨input.ending, input.size, none, []⟩
  let (events, rest) ← content d (d.entities.length + 1) origin [] cells
  checkEpilog input.ending rest
  return events

def malformed {α : Type} (encoding : Encoding) (r : Except Error α) : Except Refusal α :=
  r.mapError (.malformed · encoding)

/-- The number of signs that open a declaration, up to its target. -/
def targetLength : Nat := 5

/-- The encoding of the rest of a document with a declaration. -/
def declaredEncoding (current : Encoding) (d : Declaration) : Except Refusal Encoding :=
  match d.encoding with
  | none => .ok current
  | some (name, offset) =>
    match Encoding.known? current name with
    | some e =>
      if e.sameUnits current then .ok e else .error (.malformed ⟨.wrongEncoding, offset⟩ current)
    | none =>
      match CodePage.named name with
      | .ok (some p) => .ok (.page p)
      | .ok none => .error (.malformed ⟨.unknownEncoding, offset⟩ current)
      | .error fault => .error (.unknownEncoding fault)

def read (bytes : List UInt8) : Except Refusal Document := do
  if isFragment bytes then throw (.malformed ⟨.unclosedToken, 0⟩ .utf8)
  let (current, start) := detect bytes
  let input := current.input start (bytes.drop start)
  match ← malformed current ((declaration? input).mapError (Stop.error start)) with
  | none => return ⟨← malformed current (readBody false input), false⟩
  | some (text, rest) =>
    let stop := start + (targetLength + text.length) * current.unitSize
    let d ← malformed current ((Declaration.parse stop text).mapError (⟨.malformedDeclaration, ·⟩))
    let encoding ← declaredEncoding current d
    let restStart := nextOffset input.size input.ending rest
    let input := encoding.input restStart (bytes.drop restStart)
    return ⟨← malformed encoding (readBody d.standalone input), true⟩

end Document
end UiMarkup.Xml
