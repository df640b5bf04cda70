import UiMarkup.Console.Shortcode

/-!
Tags of styled text. A tag stands between square brackets and begins with a small letter, a number
sign, a slash or an at sign; a backslash in front makes it text. On a console without styles tags
leave no trace, but a closing tag still needs its opening one.
-/

namespace UiMarkup.Console

open Text

def isTagStart (c : Char) : Bool :=
  ('a' ≤ c && c ≤ 'z') || c == '#' || c == '/' || c == '@'

def isBracket (c : Char) : Bool := c == '[' || c == ']'

/-- A tag with its brackets at the beginning: its body, and what follows. -/
def tag? : List Char → Option (List Char × List Char)
  | '[' :: c :: cs =>
    if isTagStart c then
      match (c :: cs).dropWhile fun d => !isBracket d with
      | ']' :: rest => some ((c :: cs).takeWhile fun d => !isBracket d, rest)
      | _ => none
    else none
  | _ => none

/-- A tag behind some backslashes: their number, the body, and what follows. -/
def slashedTag? (cs : List Char) : Option (Nat × List Char × List Char) :=
  let slashes := cs.takeWhile (· == '\\')
  (tag? (cs.drop slashes.length)).map fun (body, rest) => (slashes.length, body, rest)

def bracketed (body : List Char) : List Char := '[' :: body ++ [']']

/-- A text with its tags made text. -/
def escapeTags : Nat → List Char → List Char
  | 0, cs => cs
  | _, [] => []
  | fuel + 1, c :: cs =>
    match slashedTag? (c :: cs) with
    | some (slashes, body, rest) =>
      List.replicate (2 * slashes + 1) '\\' ++ bracketed body ++ escapeTags fuel rest
    | none => c :: escapeTags fuel cs

/-- A single backslash at the end would act on what comes after the text. -/
def guardEnd (cs : List Char) : List Char :=
  if ['\\'].isSuffixOf cs && !(['\\', '\\'].isSuffixOf cs) then cs ++ ['\\'] else cs

/-- A text that has no tags where styled text is expected. -/
def literal (text : String) : String :=
  String.ofList (guardEnd (escapeTags text.length text.toList))

inductive Piece
  | text (text : List Char)
  | tag (body : List Char)
  deriving DecidableEq, Repr

namespace Piece

def consText (text : List Char) (pieces : List Piece) : List Piece :=
  if text.isEmpty then pieces else .text text :: pieces

/-- The text and the tags of styled text, after some text read backwards. Of two backslashes before
a tag one is shown, and one that is left over makes the tag text. -/
def split (before : List Char) : Nat → List Char → List Piece
  | 0, cs => consText (before.reverse ++ cs) []
  | _, [] => consText before.reverse []
  | fuel + 1, c :: cs =>
    match slashedTag? (c :: cs) with
    | some (slashes, body, rest) =>
      let piece : Piece := if slashes % 2 = 1 then .text (bracketed body) else .tag body
      consText before.reverse
        (consText (List.replicate (slashes / 2) '\\') (piece :: split [] fuel rest))
    | none => split (c :: before) fuel cs

end Piece

/-- A closing tag has no opening one. -/
inductive TagFault
  | unmatched (body : String)
  deriving DecidableEq, Repr

/-- Other names of styles. -/
def styleAliases : List (String × String) := [
  ("b", "bold"), ("c", "conceal"), ("d", "dim"), ("i", "italic"), ("o", "overline"),
  ("r", "reverse"), ("s", "strike"), ("u", "underline"), ("uu", "underline2")]

/-- The name by which an opening and a closing tag find each other. -/
def styleName (name : List Char) : String :=
  let lowered := String.ofList (lower (trim name))
  ((styleAliases.find? fun a => a.1 = lowered).map Prod.snd).getD lowered

/-- The name in the body of a tag, before its parameters. -/
def tagName (body : List Char) : List Char := body.takeWhile (· != '=')

/-- The open styles, the last one first, without the one that a tag closes. -/
def closeStyle? (name : List Char) (styles : List String) : Option (List String) :=
  if (trim name).isEmpty then styles.tail?
  else if styles.contains (styleName name) then some (styles.erase (styleName name))
  else none

/-- A backslash before an opening bracket is not shown. -/
def dropSlashes : List Char → List Char
  | '\\' :: '[' :: cs => '[' :: dropSlashes cs
  | c :: cs => c :: dropSlashes cs
  | [] => []

/-- What pieces show, inside some open styles. -/
def showPieces : List String → List Piece → Except TagFault (List Char)
  | _, [] => .ok []
  | styles, .text t :: more => do
    let rest ← showPieces styles more
    let shownText := dropSlashes t
    return withPictures shownText.length shownText ++ rest
  | styles, .tag body :: more =>
    match tagName body with
    | '/' :: name =>
      match closeStyle? name styles with
      | some styles => showPieces styles more
      | none => .error (.unmatched (String.ofList body))
    | name => showPieces (styleName name :: styles) more

/-- What styled text shows. -/
def plain (styled : String) : Except TagFault String :=
  (showPieces [] (Piece.split [] styled.length styled.toList)).map String.ofList

end UiMarkup.Console
