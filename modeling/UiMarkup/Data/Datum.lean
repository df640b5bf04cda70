import UiMarkup.Number.Decimal
import UiMarkup.OrderedMap
import UiMarkup.Text.Printable

/-!
Values of data files: what a settings file or a request can hold.
-/

namespace UiMarkup

inductive MomentKind
  | date | time | both
  deriving DecidableEq, Repr

/-- A value of a data file. Tables keep their keys in the order of the file; a `moment` is a date, a
time or both, in its usual spelling. -/
inductive Datum
  | null
  | bool (value : Bool)
  | integer (value : Int)
  | float (value : Float)
  | string (value : String)
  | moment (kind : MomentKind) (text : String)
  | list (items : List Datum)
  | table (fields : List (String × Datum))

namespace Datum

instance : Inhabited Datum := ⟨.null⟩

def quotedText (s : String) : String := String.ofList (Text.quoted s.toList)

mutual

/-- The text of a value inside another one: strings stand in quotes. -/
def innerText : Datum → String
  | .null => "None"
  | .bool true => "True"
  | .bool false => "False"
  | .integer n => toString n
  | .float x => Number.plainText x
  | .string s => quotedText s
  | .moment _ s => s
  | .list items => "[" ++ itemsText items ++ "]"
  | .table fields => "\x7b" ++ fieldsText fields ++ "\x7d"

def itemsText : List Datum → String
  | [] => ""
  | [d] => innerText d
  | d :: ds => innerText d ++ ", " ++ itemsText ds

def fieldsText : List (String × Datum) → String
  | [] => ""
  | [(k, d)] => quotedText k ++ ": " ++ innerText d
  | (k, d) :: ds => quotedText k ++ ": " ++ innerText d ++ ", " ++ fieldsText ds

end

/-- The text of a value where a string is wanted. -/
def text : Datum → String
  | .string s => s
  | d => d.innerText

/-- Everything counts as true but null, false, zero and what is empty. -/
def isTrue : Datum → Bool
  | .null => false
  | .bool b => b
  | .integer n => n != 0
  | .float x => x != 0
  | .string s => !s.isEmpty
  | .moment _ _ => true
  | .list items => !items.isEmpty
  | .table fields => !fields.isEmpty

/-- The name of the kind of a value. -/
def kindName : Datum → String
  | .null => "NoneType"
  | .bool _ => "bool"
  | .integer _ => "int"
  | .float _ => "float"
  | .string _ => "str"
  | .moment .date _ => "datetime.date"
  | .moment .time _ => "datetime.time"
  | .moment .both _ => "datetime.datetime"
  | .list _ => "list"
  | .table _ => "dict"

/-- A field of a table. -/
def get? (d : Datum) (key : String) : Option Datum :=
  match d with
  | .table fields => OrderedMap.get? fields key
  | _ => none

end Datum
end UiMarkup
