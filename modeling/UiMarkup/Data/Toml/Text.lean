import UiMarkup.Text.Digit

/-!
Strings and keys of TOML files. A basic string stands between double quotes and has
escapes; a literal one stands between single quotes and has none. Three quotes begin a
string that may have line feeds.
-/

namespace UiMarkup.Toml

def isSpace (c : Char) : Bool := c == ' ' || c == '\t'

def isSpaceOrBreak (c : Char) : Bool := isSpace c || c == '\n'

def skip (cs : List Char) : List Char := cs.dropWhile isSpace

def skipBreaks (cs : List Char) : List Char := cs.dropWhile isSpaceOrBreak

/-- Characters that may stand nowhere on a line, also not in comments. -/
def isControl (c : Char) : Bool := (c < ' ' && c != '\t') || c == '\x7f'

/-- A text with each line break of two characters made one line feed. -/
def unifyBreaks : List Char → List Char
  | '\r' :: '\n' :: cs => '\n' :: unifyBreaks cs
  | c :: cs => c :: unifyBreaks cs
  | [] => []

/-- What a backslash and one character stand for. -/
def unescape? : Char → Option Char
  | 'b' => some '\x08'
  | 't' => some '\t'
  | 'n' => some '\n'
  | 'f' => some '\x0c'
  | 'r' => some '\r'
  | '"' => some '"'
  | '\\' => some '\\'
  | _ => none

/-- The character with a number; surrogates have none. -/
def charOf? (n : Nat) : Option Char := if h : n.isValidChar then some (Char.ofNatAux n h) else none

/-- Hexadecimal digits of a character, so many, and what follows. -/
def hexChar? (count : Nat) (cs : List Char) : Option (Char × List Char) := do
  let digits := cs.take count
  if digits.length = count then
    return (← charOf? (← Text.hexNumber? digits), cs.drop count)
  else none

/-- What follows a backslash that joins lines: blanks, a line feed, and all blanks
and line feeds after it. -/
def joinLines? (cs : List Char) : Option (List Char) :=
  match skip cs with
  | [] => some []
  | '\n' :: rest => some (skipBreaks rest)
  | _ => none

/-- What an escape stands for, after its backslash, and what follows. -/
def readEscape? (severalLines : Bool) : List Char → Option (List Char × List Char)
  | [] => none
  | c :: cs =>
    if severalLines && isSpaceOrBreak c then (joinLines? (c :: cs)).map ([], ·)
    else if c = 'u' then (hexChar? 4 cs).map fun (x, rest) => ([x], rest)
    else if c = 'U' then (hexChar? 8 cs).map fun (x, rest) => ([x], rest)
    else (unescape? c).map fun x => ([x], cs)

/-- A basic string on one line, after its opening quote. -/
def basicString? : Nat → List Char → Option (List Char × List Char)
  | 0, _ => none
  | _, [] => none
  | fuel + 1, c :: cs =>
    if c = '"' then some ([], cs)
    else if c = '\\' then do
      let (text, rest) ← readEscape? false cs
      let (more, rest) ← basicString? fuel rest
      return (text ++ more, rest)
    else if isControl c then none
    else (basicString? fuel cs).map fun (more, rest) => (c :: more, rest)

/-- A literal string on one line, after its opening quote. -/
def literalString? : List Char → Option (List Char × List Char)
  | [] => none
  | c :: cs =>
    if c = '\'' then some ([], cs)
    else if isControl c then none
    else (literalString? cs).map fun (more, rest) => (c :: more, rest)

/-- At most two more quotes belong to a string that ends with three. -/
def extraQuotes (quote : Char) : List Char → List Char × List Char
  | a :: b :: cs =>
    if a = quote ∧ b = quote then ([a, b], cs) else if a =
      quote then ([a], b :: cs) else ([], a :: b :: cs)
  | [a] => if a = quote then ([a], []) else ([], [a])
  | [] => ([], [])

/-- A basic string of several lines, after its opening quotes. -/
def basicLines? : Nat → List Char → Option (List Char × List Char)
  | 0, _ => none
  | _, [] => none
  | _, '"' :: '"' :: '"' :: cs => some (extraQuotes '"' cs)
  | fuel + 1, c :: cs =>
    if c = '\\' then do
      let (text, rest) ← readEscape? true cs
      let (more, rest) ← basicLines? fuel rest
      return (text ++ more, rest)
    else if isControl c && c != '\n' then none
    else (basicLines? fuel cs).map fun (more, rest) => (c :: more, rest)

/-- A literal string of several lines, after its opening quotes. -/
def literalLines? : List Char → Option (List Char × List Char)
  | [] => none
  | '\'' :: '\'' :: '\'' :: cs => some (extraQuotes '\'' cs)
  | c :: cs =>
    if isControl c && c != '\n' then none
    else (literalLines? cs).map fun (more, rest) => (c :: more, rest)

/-- A line feed right after the opening quotes does not count. -/
def dropFirstBreak : List Char → List Char
  | '\n' :: cs => cs
  | cs => cs

/-- A string on one line with its quotes, if there is one; the second answer is that
it is not well-formed. -/
def lineString? : List Char → Option (Option (List Char × List Char))
  | '"' :: cs => some (basicString? (cs.length + 1) cs)
  | '\'' :: cs => some (literalString? cs)
  | _ => none

/-- A string with its quotes, if there is one. -/
def string? : List Char → Option (Option (List Char × List Char))
  | '"' :: '"' :: '"' :: cs => some (basicLines? (cs.length + 1) (dropFirstBreak cs))
  | '\'' :: '\'' :: '\'' :: cs => some (literalLines? (dropFirstBreak cs))
  | cs => lineString? cs

def isBareKeyChar (c : Char) : Bool := c.isAlphanum || c == '-' || c == '_'

/-- A part of a key: a bare word or a string on one line. -/
def keyPart? (cs : List Char) : Option (String × List Char) :=
  match lineString? cs with
  | some found => found.map fun (text, rest) => (String.ofList text, rest)
  | none =>
    let word := cs.takeWhile isBareKeyChar
    if word.isEmpty then none else some (String.ofList word, cs.dropWhile isBareKeyChar)

/-- A key: parts with dots between them. -/
def key? : Nat → List Char → Option (List String × List Char)
  | 0, _ => none
  | fuel + 1, cs => do
    let (part, rest) ← keyPart? cs
    match skip rest with
    | '.' :: rest => do
      let (parts, rest) ← key? fuel (skip rest)
      return (part :: parts, rest)
    | rest => return ([part], rest)

/-- What follows a comment, if there is one; a comment may not hold control characters. -/
def skipComment? : List Char → Option (List Char)
  | '#' :: cs =>
    if (cs.takeWhile (· != '\n')).any isControl then none else some (cs.dropWhile (· != '\n'))
  | cs => some cs

/-- What follows blanks, line feeds and comments. -/
def skipFiller? : Nat → List Char → Option (List Char)
  | 0, cs => some cs
  | fuel + 1, cs => do
    let rest ← skipComment? (skipBreaks cs)
    if rest.length = cs.length then return rest else skipFiller? fuel rest

end UiMarkup.Toml
