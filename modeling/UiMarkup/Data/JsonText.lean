import UiMarkup.Data.Datum
import UiMarkup.Text.Digit

/-!
Writing JSON over several lines, two blanks deeper for each level.
-/

namespace UiMarkup.Json

/-- A character inside a string. -/
def escapeChar (c : Char) : List Char :=
  if c = '"' then ['\\', '"']
  else if c = '\\' then ['\\', '\\']
  else if c = '\n' then ['\\', 'n']
  else if c = '\r' then ['\\', 'r']
  else if c = '\t' then ['\\', 't']
  else if c = '\x08' then ['\\', 'b']
  else if c = '\x0c' then ['\\', 'f']
  else if c < ' ' then ['\\', 'u'] ++ Text.hexDigits 4 c.toNat
  else [c]

def stringText (s : String) : String :=
  String.ofList (['"'] ++ s.toList.flatMap escapeChar ++ ['"'])

/-- A new line at some level. -/
def newLine (level : Nat) : String := "\n" ++ String.ofList (List.replicate (2 * level) ' ')

mutual

def textAt (level : Nat) : Datum → String
  | .null => "null"
  | .bool true => "true"
  | .bool false => "false"
  | .integer n => toString n
  | .float x => Number.plainText x
  | .string s => stringText s
  | .moment _ s => stringText s
  | .list [] => "[]"
  | .list items => "[" ++ itemsAt (level + 1) items ++ newLine level ++ "]"
  | .table [] => "\x7b\x7d"
  | .table fields => "\x7b" ++ fieldsAt (level + 1) fields ++ newLine level ++ "\x7d"

def itemsAt (level : Nat) : List Datum → String
  | [] => ""
  | [d] => newLine level ++ textAt level d
  | d :: ds => newLine level ++ textAt level d ++ "," ++ itemsAt level ds

def fieldsAt (level : Nat) : List (String × Datum) → String
  | [] => ""
  | [(k, d)] => newLine level ++ stringText k ++ ": " ++ textAt level d
  | (k, d) :: ds => newLine level ++ stringText k ++ ": " ++ textAt level d ++
      "," ++ fieldsAt level ds

end

/-- The text of a value. -/
def text (d : Datum) : String := textAt 0 d

end UiMarkup.Json
