import UiMarkup.Expr.Error
import UiMarkup.Expr.Token

/-!
From the text of an expression to its tokens. Blanks separate tokens, the longest operator wins, and
a word is the longest run of letters, digits, numerals and underscores.
-/

namespace UiMarkup.Lexer

open Text

/-- The character that a backslash and this one stand for. -/
def unescape : Char → Char
  | 'n' => '\n'
  | 't' => '\t'
  | 'r' => '\r'
  | c => c

/-- The value of a string literal after its opening quote, and how many characters it takes up to
and with the closing one. -/
def readString (quote : Char) : List Char → Option (List Char × Nat)
  | [] => none
  | c :: cs =>
    if c = quote then some ([], 1)
    else if c = '\\' then
      match cs with
      | [] => none
      | d :: ds => (readString quote ds).map fun (value, n) => (unescape d :: value, n + 2)
    else (readString quote cs).map fun (value, n) => (c :: value, n + 1)

/-- A number from its first digit on. A point belongs to it if a digit follows. -/
def readNumber (c : Char) (cs : List Char) : Lexeme × Nat :=
  let whole := c :: cs.takeWhile isDigit
  match cs.dropWhile isDigit with
  | '.' :: d :: more =>
    if isDigit d then
      let part := d :: more.takeWhile isDigit
      (.float (String.ofList (whole ++ '.' :: part)), whole.length + 1 + part.length)
    else (.integer (String.ofList whole), whole.length)
  | _ => (.integer (String.ofList whole), whole.length)

def isWordStart (c : Char) : Bool := isLetter c || c == '_'

def isWordPart (c : Char) : Bool := isWordChar c || c == '_'

/-- A keyword or a name from its first character on. -/
def readWord (c : Char) (cs : List Char) : Lexeme × Nat :=
  let word := c :: cs.takeWhile isWordPart
  let text := String.ofList word
  ((Keyword.ofWord? text).elim (.name text) .keyword, word.length)

/-- An operator or a delimiter; two characters win over one. -/
def readSymbol? (c : Char) (cs : List Char) : Option (Symbol × Nat) :=
  match c, cs.head? with
  | '=', some '=' => some (.eq, 2)
  | '!', some '=' => some (.ne, 2)
  | '<', some '=' => some (.le, 2)
  | '>', some '=' => some (.ge, 2)
  | '&', some '&' => some (.and, 2)
  | '|', some '|' => some (.or, 2)
  | '<', _ => some (.lt, 1)
  | '>', _ => some (.gt, 1)
  | '+', _ => some (.plus, 1)
  | '-', _ => some (.minus, 1)
  | '*', _ => some (.star, 1)
  | '/', _ => some (.slash, 1)
  | '!', _ => some (.bang, 1)
  | '.', _ => some (.dot, 1)
  | ',', _ => some (.comma, 1)
  | '(', _ => some (.leftParen, 1)
  | ')', _ => some (.rightParen, 1)
  | _, _ => none

/-- The lexeme that begins with a character that is no blank, and how many characters it takes. -/
def readLexeme (c : Char) (cs : List Char) : Except ExprProblem (Lexeme × Nat) :=
  if c = '\'' ∨ c = '"' then
    match readString c cs with
    | some (value, n) => .ok (.string (String.ofList value), n + 1)
    | none => .error .unterminatedString
  else if isDigit c then .ok (readNumber c cs)
  else if isWordStart c then .ok (readWord c cs)
  else
    match readSymbol? c cs with
    | some (s, n) => .ok (.symbol s, n)
    | none => .error (.unexpectedCharacter c)

/-- The tokens of a text that begins at an offset, and the position at which nothing is left. -/
def scanFrom (offset : Nat) : List Char → Except ExprError (List Token × Nat)
  | [] => .ok ([], offset)
  | c :: cs =>
    if isBlank c then scanFrom (offset + 1) cs
    else
      match readLexeme c cs with
      | .error problem => .error ⟨problem, offset⟩
      | .ok (lexeme, n) =>
        (scanFrom (offset + n) (cs.drop (n - 1))).map fun (ts, stop) =>
          (⟨lexeme, offset, n⟩ :: ts, stop)
  termination_by cs => cs.length
  decreasing_by
  · simp
  · simp only [List.length_drop, List.length_cons]; omega

/-- The tokens of an expression and its last position. -/
def scan (source : List Char) : Except ExprError (List Token × Nat) := scanFrom 0 source

/-- The tokens of an expression, without an end mark. -/
def tokens (source : List Char) : Except ExprError (List Token) := (scan source).map Prod.fst

/-- The tokens of an expression, with an end mark at its last position. -/
def marked (source : List Char) : Except ExprError (List Mark) :=
  (scan source).map fun (ts, stop) => ts.map Token.mark ++ [.stop stop]

end UiMarkup.Lexer
