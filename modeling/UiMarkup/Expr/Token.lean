/-!
Tokens of binding expressions.
-/

namespace UiMarkup

inductive Keyword
  | trueValue | falseValue | ifWord | thenWord | elseWord
  deriving DecidableEq, Repr

def Keyword.spelling : Keyword → String
  | .trueValue => "true"
  | .falseValue => "false"
  | .ifWord => "if"
  | .thenWord => "then"
  | .elseWord => "else"

def Keyword.ofWord? : String → Option Keyword
  | "true" => some .trueValue
  | "false" => some .falseValue
  | "if" => some .ifWord
  | "then" => some .thenWord
  | "else" => some .elseWord
  | _ => none

inductive Symbol
  | eq | ne | lt | le | gt | ge | and | or | plus | minus | star | slash | bang
  | dot | comma | leftParen | rightParen
  deriving DecidableEq, Repr

def Symbol.spelling : Symbol → String
  | .eq => "=="
  | .ne => "!="
  | .lt => "<"
  | .le => "<="
  | .gt => ">"
  | .ge => ">="
  | .and => "&&"
  | .or => "||"
  | .plus => "+"
  | .minus => "-"
  | .star => "*"
  | .slash => "/"
  | .bang => "!"
  | .dot => "."
  | .comma => ","
  | .leftParen => "("
  | .rightParen => ")"

/-- A string carries its value, a number the digits as written. -/
inductive Lexeme
  | string (value : String)
  | integer (digits : String)
  | float (digits : String)
  | name (text : String)
  | keyword (word : Keyword)
  | symbol (sign : Symbol)
  deriving DecidableEq, Repr

/-- The text that stands for a token in messages: for a string its value, for
all else its spelling. -/
def Lexeme.text : Lexeme → String
  | .string value => value
  | .integer digits => digits
  | .float digits => digits
  | .name text => text
  | .keyword word => word.spelling
  | .symbol sign => sign.spelling

/-- A lexeme and the characters that it takes in the source. -/
structure Token where
  lexeme : Lexeme
  offset : Nat
  length : Nat
  deriving DecidableEq, Repr

/-- A token of a list that ends with a mark, which has no lexeme. -/
structure Mark where
  lexeme : Option Lexeme
  offset : Nat
  length : Nat
  deriving DecidableEq, Repr

def Token.mark (t : Token) : Mark := ⟨some t.lexeme, t.offset, t.length⟩

/-- The mark at the end of a text. -/
def Mark.stop (offset : Nat) : Mark := ⟨none, offset, 0⟩

theorem Keyword.ofWord?_spelling (k : Keyword) : Keyword.ofWord? k.spelling = some k := by
  cases k <;> rfl

end UiMarkup
