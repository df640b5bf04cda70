import UiMarkup.Number.Literal
import UiMarkup.ParseError

/-!
Versions from text: two numbers with a dot between them.
-/

namespace UiMarkup.Version

open Text

/-- Decimal digits of any script, behind which a line feed may stand. -/
def isNumber (cs : List Char) : Bool :=
  let digits := (dropSuffix? ['\n'] cs).getD cs
  !digits.isEmpty && digits.all isDecimal

def readNumber (cs : List Char) : Except ReadFault Nat :=
  ((Number.readWhole cs).map Int.toNat).mapError .number

/-- The version that an attribute at some place declares. -/
def parse (text : String) (span : Span) : Except ReadFault Version :=
  let trimmed := trim text.toList
  if trimmed.isEmpty then .error (.parse ⟨.emptyVersion, span⟩)
  else
    match pieces '.' trimmed with
    | [major, minor] =>
      if isNumber major && isNumber minor then do
        return ⟨← readNumber major, ← readNumber minor⟩
      else .error (.parse ⟨.versionFormat (String.ofList trimmed), span⟩)
    | _ => .error (.parse ⟨.versionFormat (String.ofList trimmed), span⟩)

/-- Documents may not declare a version that is too new. -/
def checkSupported (v : Version) (span : Span) : Except ReadFault Unit :=
  if v.newerThan newest then .error (.parse ⟨.unsupportedVersion v, span⟩) else .ok ()

end UiMarkup.Version
