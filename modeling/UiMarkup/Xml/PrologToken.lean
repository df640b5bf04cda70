import UiMarkup.Xml.Scan

/-!
Tokens outside the root element: those of the prolog, of the document type, and
of what follows the root.
-/

namespace UiMarkup.Xml

/-- How often a part of a content model may occur, where that is written. -/
inductive Occurrence
  | optional | repeated | atLeastOnce
  deriving DecidableEq, Repr

/-- A literal that is a value is refused where its closing quote stands if it is cut off there. -/
inductive PrologToken
  | declarationOpen (keyword : String)
  | declarationClose
  | name (text : String) (occurs : Option Occurrence)
  | word
  | hashName (text : String)
  | bar
  | comma
  | percent
  | parameterReference
  | openParen
  | closeParen (occurs : Option Occurrence)
  | openBracket
  | closeBracket
  | conditionOpen
  | conditionClose
  | literal (cells : List Cell) (cut : Option Nat)
  | instruction
  | declaration
  | comment

namespace PrologToken

def occurrence? : Char → Option Occurrence
  | '?' => some .optional
  | '*' => some .repeated
  | '+' => some .atLeastOnce
  | _ => none

/-- A token that also ends where the characters end, but not in an unfinished character. -/
def atEnd {α : Type} (stop : Stop) (a : α) : Except Stop α :=
  if stop = .unclosed then .ok a else .error stop

/-- The characters up to a closing quote, which only some signs may follow. -/
def literalUntil (e : Ending) (quote : Char) :
    (cs : List Cell) → Except Stop (Taken (List Cell) cs.length)
  | [] => .error e.stop
  | c :: cs =>
    if c.char = quote then
      match cs with
      | [] => atEnd e.stopAtSign (.one [] c [])
      | d :: ds =>
        if d.isSpace || d.char ∈ ['>', '%', '['] then .ok (.one [] c (d :: ds))
        else .error (.invalid d.offset)
    else (literalUntil e quote cs).map fun t => (t.map (c :: ·)).behind c

def isKeywordChar (c : Cell) : Bool := c.startsName && !c.far

/-- The keyword of a declaration, after its `<!`. -/
def keyword (e : Ending) : List Cell → (cs : List Cell) → Except Stop (Taken String cs.length)
  | _, [] => .error e.stopAtSign
  | sofar, c :: cs =>
    let found := String.ofList (textOf sofar.reverse)
    if isKeywordChar c then (keyword e (c :: sofar) cs).map (·.behind c)
    else if sofar.isEmpty then .error (.invalid c.offset)
    else if c.isSpace then .ok (.nothing found (c :: cs))
    else if c.char = '%' then
      match cs with
      | [] => if e.stop = .unclosed then .error .unclosed else .ok (.nothing found [c])
      | d :: ds =>
        if d.isSpace || d.char = '%' then .error (.invalid c.offset)
        else .ok (.nothing found (c :: d :: ds))
    else .error (.invalid c.offset)

/-- A declaration, a comment or the opening of a conditional section, after `<!`. -/
def markupDeclaration (e : Ending) (cs : List Cell) : Except Stop (Taken PrologToken cs.length) :=
  match cs with
  | ⟨'-', _, _, _⟩ :: cs => do
    let body ← Xml.comment e cs
    return (body.map fun _ => .comment).behind _
  | ⟨'[', _, _, _⟩ :: cs => .ok (.one .conditionOpen _ cs)
  | cs => do
    let word ← keyword e [] cs
    return word.map .declarationOpen

/-- A percent sign, or a reference to a parameter entity, after the sign. -/
def afterPercent (e : Ending) (cs : List Cell) : Except Stop (Taken PrologToken cs.length) :=
  match cs with
  | [] => .error e.stop
  | c :: cs =>
    if c.isSpace || c.char = '%' then .ok (.nothing .percent (c :: cs))
    else do
      let n ← Xml.name e (c :: cs)
      match h : n.rest with
      | [] => throw e.stop
      | d :: rest =>
        if d.char = ';' then
          return ⟨.parameterReference, rest,
            by have := n.le; rw [h] at this; exact Nat.le_of_succ_le this⟩
        else throw (.invalid d.offset)

/-- A name after a number sign. -/
def afterHash (e : Ending) (cs : List Cell) : Except Stop (Taken PrologToken cs.length) := do
  let n ← Xml.name e cs
  let token := PrologToken.hashName (String.ofList (textOf n.value))
  match n.rest with
  | [] => atEnd e.stop ⟨token, [], by simp⟩
  | d :: _ =>
    if d.isSpace || d.char ∈ [')', '>', '%', '|'] then return ⟨token, n.rest, n.le⟩
    else throw (.invalid d.offset)

/-- A closing parenthesis, after it. -/
def afterParen (e : Ending) (cs : List Cell) : Except Stop (Taken PrologToken cs.length) :=
  match cs with
  | [] => atEnd e.stopAtSign (.nothing (.closeParen none) [])
  | c :: cs =>
    match occurrence? c.char with
    | some occurs => .ok (.one (.closeParen (some occurs)) c cs)
    | none =>
      if c.isSpace || c.char ∈ ['>', ',', '|', ')'] then .ok (.nothing (.closeParen none) (c :: cs))
      else .error (.invalid c.offset)

/-- A closing bracket or the end of a conditional section, after the first bracket. -/
def afterBracket (e : Ending) (cs : List Cell) : Except Stop (Taken PrologToken cs.length) :=
  match cs with
  | ⟨']', _, _, _⟩ :: ⟨'>', _, _, _⟩ :: cs => .ok ((Taken.one .conditionClose _ cs).behind _)
  | [⟨']', _, _, _⟩] =>
    if e.stop = .unclosed then .error .unclosed else .ok (.nothing .closeBracket _)
  | cs => .ok (.nothing .closeBracket cs)

/-- A name, or a word that does not begin like one. -/
def nameOrWord (e : Ending) (c : Cell) (cs : List Cell) :
    Except Stop (Taken PrologToken cs.length) :=
  let tail := nameTail cs
  let token := if c.startsName then .name (String.ofList (textOf (c :: tail.value))) none else .word
  match h : tail.rest with
  | [] => atEnd e.stop ⟨token, [], by simp⟩
  | d :: rest =>
    if d.isSpace || d.char ∈ ['>', ')', ',', '|', '[', '%'] then .ok ⟨token, tail.rest, tail.le⟩
    else
      match occurrence? d.char, c.startsName with
      | some occurs, true =>
        .ok ⟨.name (String.ofList (textOf (c :: tail.value))) (some occurs), rest,
          by have := tail.le; rw [h] at this; simp at this; omega⟩
      | _, _ => .error (.invalid d.offset)

/-- What comes after an angle bracket: nothing for a start tag. -/
def afterAngle (e : Ending) (cs : List Cell) : Except Stop (Option (Taken PrologToken cs.length)) :=
  match cs with
  | [] => match e with
    | .truncated _ => .ok none
    | .invalid _ true => .ok none
    | e => .error e.stopAtSign
  | c :: cs =>
    if c.char = '!' then (markupDeclaration e cs).map fun t => some (t.behind c)
    else if c.char = '?' then do
      let i ← Xml.instruction e cs
      let token := if i.value.isDeclaration then PrologToken.declaration else .instruction
      return some ((i.map fun _ => token).behind c)
    else if c.startsName || c.far then .ok none
    else .error (.invalid c.offset)

/-- The token that begins with a character other than a blank, or nothing for a start tag. -/
def first (e : Ending) (c : Cell) (cs : List Cell) :
    Except Stop (Option (Taken PrologToken cs.length)) :=
  let one (t : PrologToken) : Except Stop (Option (Taken PrologToken cs.length)) :=
    .ok (some (.nothing t cs))
  match c.char with
  | '<' => afterAngle e cs
  | '"' => (literalUntil e '"' cs).map fun t => some ⟨.literal t.value none, t.rest, t.le⟩
  | '\'' => (literalUntil e '\'' cs).map fun t => some ⟨.literal t.value none, t.rest, t.le⟩
  | '%' => (afterPercent e cs).map some
  | '#' => (afterHash e cs).map some
  | ')' => (afterParen e cs).map some
  | ']' => (afterBracket e cs).map some
  | ',' => one .comma
  | '[' => one .openBracket
  | '(' => one .openParen
  | '|' => one .bar
  | '>' => one .declarationClose
  | _ => if c.inName then (nameOrWord e c cs).map some else .error (.invalid c.offset)

/-- Stands for half a unit. -/
def half : Char := '\uFFFD'

/-- A token that more characters could go on with, where half a unit is behind it. Then a name is no
keyword, and the closing quote of a literal is taken for the unit that is cut off. -/
def withHalf? (t : PrologToken) (offset : Nat) : Option PrologToken :=
  match t with
  | .name text none => some (.name (text.push half) none)
  | .hashName text => some (.hashName (text.push half))
  | .word => some .word
  | .literal cells _ => some (.literal cells (some (offset - 2)))
  | .closeParen none => some (.closeParen none)
  | .closeBracket => some .closeBracket
  | _ => none

end PrologToken

/-- What ends a run of tokens: a start tag, the end of the characters, or a
token that cannot be read. -/
inductive PrologEnd
  | root (cells : List Cell)
  | finished
  | failed (error : Error)

/-- The tokens outside the root element, with their places, up to a start tag. -/
def prologTokens (e : Ending) (cs : List Cell) : List (PrologToken × Nat) × PrologEnd :=
  match cs with
  | [] => match e with
    | .finished => ([], .finished)
    | .invalid offset _ => ([], .failed ⟨.invalidToken, offset⟩)
    | .truncated offset => ([], .failed ⟨.partialCharacter, offset⟩)
    | .halved offset => ([], .failed ⟨.unclosedToken, offset⟩)
  | c :: cs =>
    if c.isSpace then prologTokens e cs
    else match PrologToken.first e c cs with
      | .error stop => ([], .failed (stop.error c.offset))
      | .ok none => ([], .root (c :: cs))
      | .ok (some t) =>
        match e.half?.bind t.value.withHalf?, t.rest with
        | some token, [] => ([(token, c.offset)], .finished)
        | _, _ =>
          let (tokens, ending) := prologTokens e t.rest
          ((t.value, c.offset) :: tokens, ending)
  termination_by cs.length
  decreasing_by
  · simp
  · have := t.le; simp only [List.length_cons]; omega

end UiMarkup.Xml
