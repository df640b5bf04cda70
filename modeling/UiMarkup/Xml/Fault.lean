import UiMarkup.Source.Map

/-!
What can be wrong with an XML document, and where, and what can be wrong with the
encoding that it declares.
-/

namespace UiMarkup.Xml

inductive Fault
  | syntaxError
  | noElement
  | invalidToken
  | unclosedToken
  | partialCharacter
  | mismatchedTag
  | duplicateAttribute
  | junkAfterRoot
  | parameterReference
  | undefinedEntity
  | recursiveEntity
  | asynchronousEntity
  | invalidCharacterNumber
  | binaryEntity
  | externalEntityInAttribute
  | misplacedDeclaration
  | wrongEncoding
  | unknownEncoding
  | unclosedCdata
  | malformedDeclaration
  | publicIdCharacter
  deriving DecidableEq, Repr

def Fault.message : Fault → String
  | .syntaxError => "syntax error"
  | .noElement => "no element found"
  | .invalidToken => "not well-formed (invalid token)"
  | .unclosedToken => "unclosed token"
  | .partialCharacter => "partial character"
  | .mismatchedTag => "mismatched tag"
  | .duplicateAttribute => "duplicate attribute"
  | .junkAfterRoot => "junk after document element"
  | .parameterReference => "illegal parameter entity reference"
  | .undefinedEntity => "undefined entity"
  | .recursiveEntity => "recursive entity reference"
  | .asynchronousEntity => "asynchronous entity"
  | .invalidCharacterNumber => "reference to invalid character number"
  | .binaryEntity => "reference to binary entity"
  | .externalEntityInAttribute => "reference to external entity in attribute"
  | .misplacedDeclaration => "XML or text declaration not at start of entity"
  | .wrongEncoding => "encoding specified in XML declaration is incorrect"
  | .unknownEncoding => "unknown encoding"
  | .unclosedCdata => "unclosed CDATA section"
  | .malformedDeclaration => "XML declaration not well-formed"
  | .publicIdCharacter => "illegal character(s) in public id"

/-- A fault at a byte of the document. -/
structure Error where
  fault : Fault
  offset : Nat
  deriving DecidableEq, Repr

/-- Why a token cannot be read to its end: the entity ends in it, or in a character of it, or a
character cannot stand where it does. -/
inductive Stop
  | unclosed
  | truncated
  | invalid (offset : Nat)
  deriving DecidableEq, Repr

/-- The error for a token that begins at an offset. -/
def Stop.error (start : Nat) : Stop → Error
  | .unclosed => ⟨.unclosedToken, start⟩
  | .truncated => ⟨.partialCharacter, start⟩
  | .invalid offset => ⟨.invalidToken, offset⟩

/-! ### Encodings -/

/-- Why no codec reads the characters of a document. -/
inductive CodecFault
  | unknown (name : String)
  | notText (name : String)
  | multiByte
  | failed (name reason : String)
  | beyondAscii
  deriving DecidableEq, Repr

def CodecFault.message : CodecFault → String
  | .unknown name => "unknown encoding: " ++ name
  | .notText name =>
    "'" ++ name ++ "' is not a text encoding; use codecs.decode() to handle arbitrary codecs"
  | .multiByte => "multi-byte encodings are not supported"
  | .failed name reason =>
    "decoding with '" ++ name ++ "' codec failed (UnicodeError: " ++ reason ++ ")"
  | .beyondAscii =>
    "'ascii' codec can't decode byte 0x80 in position 82: ordinal not in range(128)"

end UiMarkup.Xml
