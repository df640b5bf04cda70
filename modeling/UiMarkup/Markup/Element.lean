import UiMarkup.Markup.Tag
import UiMarkup.Source.Map
import UiMarkup.Xml.Document
import UiMarkup.Xml.Position

/-!
Markup as a tree of elements with attributes. Every element and every value has
its place in the source.
-/

namespace UiMarkup

structure Attribute where
  name : String
  value : String
  span : Span
  deriving DecidableEq, Repr

/-- The span reaches from the start tag to the end tag. -/
structure Element where
  tag : String
  attributes : List Attribute
  children : List Element
  span : Span

namespace Element

instance : Inhabited Element := ⟨⟨"", [], [], .origin⟩⟩

/-- The value of the first attribute with a name. -/
def get? (e : Element) (name : String) : Option String :=
  (e.attributes.find? fun a => a.name = name).map Attribute.value

def attribute? (e : Element) (name : String) : Option Attribute :=
  e.attributes.find? fun a => a.name = name

/-- The values of the attributes by their names. -/
def values (e : Element) : List (String × String) := e.attributes.map fun a => (a.name, a.value)

mutual

/-- The element and all inside it, each before its children. -/
def walk : Element → List Element
  | ⟨tag, attributes, children, span⟩ => ⟨tag, attributes, children, span⟩ :: walkAll children

def walkAll : List Element → List Element
  | [] => []
  | e :: es => walk e ++ walkAll es

end

/-! ### Equality -/

mutual

def same : Element → Element → Bool
  | ⟨tag, attributes, children, span⟩, ⟨tag', attributes', children', span'⟩ =>
    tag = tag' && attributes = attributes' && sameAll children children' && span = span'

def sameAll : List Element → List Element → Bool
  | [], [] => true
  | e :: es, e' :: es' => same e e' && sameAll es es'
  | _, _ => false

end

mutual

theorem same_iff (a b : Element) : same a b = true ↔ a = b := by
  cases a
  cases b
  simp [same, sameAll_iff, and_assoc]

theorem sameAll_iff (as bs : List Element) : sameAll as bs = true ↔ as = bs := by
  cases as <;> cases bs <;> simp [sameAll, same_iff, sameAll_iff]

end

instance : DecidableEq Element := fun a b => decidable_of_iff _ (same_iff a b)

end Element

/-- A document's root element and its source. -/
structure Markup where
  root : Element
  source : SourceMap
  hasDeclaration : Bool
  deriving DecidableEq

namespace Markup

/-- An element that has begun, with the children that have ended, the last one first. -/
structure Started where
  tag : String
  attributes : List Attribute
  start : Nat
  children : List Element

/-- Declarations of namespaces are no attributes. -/
def isNamespace (name : String) : Bool := name = "xmlns" || "xmlns:".toList.isPrefixOf name.toList

/-- The offset of the value of an attribute of the tag at an offset; a value that is not found in
the tag counts as standing there. -/
def valueStart (places : List (List UInt8 × Nat)) (tagStart : Nat) (name : String) : Nat :=
  match places.reverse.find? fun p => Text.decodeUtf8 p.1 = name.toList with
  | some p => tagStart + p.2
  | none => tagStart

/-- The attributes of the tag at an offset. -/
def placeAttributes (source : SourceMap) (start : Nat) (attributes : List (String × String)) :
    List Attribute :=
  let raw := (source.bytes.drop start).take (Tag.stop source.bytes start - start)
  let places := Tag.valuePlaces raw.length raw
  (attributes.filter fun a => !isNamespace a.1).map fun (name, value) =>
    let first := valueStart places start name
    ⟨name, value, source.span first (first + Text.utf8Length value.toList)⟩

/-- Ends an element whose last tag is at an offset. -/
def close (source : SourceMap) (s : Started) (lastTag : Nat) : Element :=
  ⟨s.tag, s.attributes, s.children.reverse, source.span s.start (Tag.stop source.bytes lastTag)⟩

/-- The element that some events make up, inside others that have begun. -/
def build? (source : SourceMap) : List Started → List Xml.Event → Option Element
  | _, [] => none
  | opened, .start name attributes offset :: more =>
    build? source (⟨name, placeAttributes source offset attributes, offset, []⟩ :: opened) more
  | [], .finish _ :: _ => none
  | [s], .finish offset :: _ => some (close source s offset)
  | s :: outer :: opened, .finish offset :: more =>
    build? source ({ outer with children := close source s offset :: outer.children } :: opened)
      more

/-- Why there is no markup: an XML fault at a place, or an encoding that no codec reads. -/
inductive Fault
  | xml (fault : Xml.Fault) (span : Span)
  | unknownEncoding (fault : Xml.CodecFault)
  deriving DecidableEq, Repr

/-- The empty region at the place of an XML error. -/
def errorSpan (source : SourceMap) (encoding : Xml.Encoding) (offset : Nat) : Span :=
  let p := Xml.Position.ofOffset encoding source.bytes offset
  let place := source.offsetOf (p.line + 1) p.column
  ⟨place, place, p.line + 1, p.column + 1⟩

/-- Reads the bytes of a document. -/
def read (bytes : List UInt8) : Except Fault Markup :=
  let source : SourceMap := ⟨bytes⟩
  match Xml.Document.read bytes with
  | .error (.malformed e encoding) => .error (.xml e.fault (errorSpan source encoding e.offset))
  | .error (.unknownEncoding fault) => .error (.unknownEncoding fault)
  | .ok document =>
    match build? source [] document.events with
    | some root => .ok ⟨root, source, document.hasDeclaration⟩
    | none => .error (.xml .noElement .origin)

end Markup
end UiMarkup
