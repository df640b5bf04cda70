import Mathlib
import UiMarkup.Expr.Lexer
import UiMarkup.Proofs.Expr.Grammar
import UiMarkup.Text.Split

/-!
Texts of expressions. Parentheses stand where the levels of the grammar ask for them, and there is a
blank between any two tokens. A text is not determined by its expression: a string may stand in
quotes of both kinds, and a number with a point may have more digits than it needs.
-/

namespace UiMarkup

/-- A token of a rendered expression. That of a literal has its value, which may be
spelled in several ways. -/
inductive Piece
  | literal (value : Literal)
  | name (text : String)
  | keyword (word : Keyword)
  | symbol (sign : Symbol)

namespace Piece

/-- A character of a string literal. -/
def escape (quote c : Char) : List Char :=
  if c = '\n' then ['\\', 'n']
  else if c = '\t' then ['\\', 't']
  else if c = '\r' then ['\\', 'r']
  else if c = '\\' ∨ c = quote then ['\\', c]
  else [c]

def isQuote (c : Char) : Prop := c = '"' ∨ c = '\''

/-- The texts of a token. -/
inductive SpelledBy : Piece → List Char → Prop
  | string (value : String) {quote : Char} : isQuote quote →
      SpelledBy (.literal (.string value))
      (quote :: (value.toList.flatMap (escape quote) ++ [quote]))
  | integer (n : Nat) : SpelledBy (.literal (.integer n)) (Nat.toDigits 10 n)
  | float {whole part : List Char} {x : Float} : whole ≠ [] → part ≠ [] →
      (∀ c ∈ whole, Text.isDigit c) →
      (∀ c ∈ part, Text.isDigit c) → Number.readFloat (whole ++ '.' :: part) = .ok x →
      SpelledBy (.literal (.float x)) (whole ++ '.' :: part)
  | trueValue : SpelledBy (.literal (.bool true)) "true".toList
  | falseValue : SpelledBy (.literal (.bool false)) "false".toList
  | name (text : String) : SpelledBy (.name text) text.toList
  | keyword (word : Keyword) : SpelledBy (.keyword word) word.spelling.toList
  | symbol (sign : Symbol) : SpelledBy (.symbol sign) sign.spelling.toList

end Piece

namespace Expr

/-! ### Tokens -/

open Piece (symbol)

def bracketed (ps : List Piece) : List Piece := symbol .leftParen :: (ps ++ [symbol .rightParen])

def bracketedIf (c : Bool) (ps : List Piece) : List Piece := if c then bracketed ps else ps

def pathPieces (path : List String) : List Piece := (path.map Piece.name).intersperse (symbol .dot)

/-- The level of the grammar that an expression is on. The levels of the operators
are their precedences. -/
def level : Expr → Nat
  | .conditional _ _ _ => 0
  | .binary op _ _ => op.precedence
  | .unary _ _ => 6
  | .literal _ | .field _ | .shared _ | .call _ _ _ => 7

/-- The receiver of a call that names none. -/
def isSelf : Expr → Bool
  | .literal (.string value) => value = "self"
  | _ => false

/-- A method may be called without parentheses around the receiver: on a path or on a call. The path
of just the word for the shared state would not be read as a path of the model there. -/
def isOpen : Expr → Bool
  | .field path => path ≠ ["shared"]
  | .shared _ | .call _ _ _ => true
  | _ => false

/-- What comes before the name of a method, from the tokens of the receiver. -/
def receiverPieces (receiver : Expr) (ps : List Piece) : List Piece :=
  if receiver.isSelf then [] else bracketedIf (!receiver.isOpen) ps ++ [symbol .dot]

mutual

/-- The tokens of an expression. An operand is in parentheses if its level is too low. -/
def pieces : Expr → List Piece
  | .literal value => [.literal value]
  | .field path => pathPieces path
  | .shared path => pathPieces ("shared" :: path)
  | .call receiver method args =>
    receiverPieces receiver (pieces receiver) ++
      .name method :: symbol .leftParen :: (argumentPieces args ++ [symbol .rightParen])
  | .binary op left right =>
    bracketedIf (left.level < op.precedence) (pieces left) ++
      symbol op.symbol :: bracketedIf (right.level < op.precedence + 1) (pieces right)
  | .unary op operand => symbol op.symbol :: bracketedIf (operand.level < 6) (pieces operand)
  | .conditional c t e =>
    .keyword .ifWord :: (bracketedIf (c.level < 1) (pieces c) ++
      .keyword .thenWord :: (pieces t ++ .keyword .elseWord :: pieces e))

/-- Arguments with commas between them. -/
def argumentPieces : List Expr → List Piece
  | [] => []
  | [e] => pieces e
  | e :: e' :: es => pieces e ++ symbol .comma :: argumentPieces (e' :: es)

end

/-- The text is that of the tokens of an expression, each spelled somehow,
with blanks between them. -/
def RenderedBy (e : Expr) (text : List Char) : Prop :=
  ∃ texts, List.Forall₂ Piece.SpelledBy e.pieces texts ∧ text = Text.joinWith [' '] texts

end Expr

/-! ### Expressions that have a text -/

/-- A word that is no keyword. -/
def IsIdentifier (text : String) : Prop :=
  (∃ c cs, text.toList = c :: cs ∧ Lexer.isWordStart c ∧ ∀ d ∈ cs, Lexer.isWordPart d) ∧
    Keyword.ofWord? text = none

/-- A number is written without a sign, as a whole number that is not too long or with
digits around a point. -/
inductive Literal.WellFormed : Literal → Prop
  | string (value : String) : WellFormed (.string value)
  | integer {n : Nat} : (Nat.toDigits 10 n).length ≤ Number.maxDigits → WellFormed (.integer n)
  | float {x : Float} {whole part : List Char} : whole ≠ [] → part ≠ [] →
      (∀ c ∈ whole, Text.isDigit c) →
      (∀ c ∈ part, Text.isDigit c) → Number.readFloat (whole ++ '.' :: part) = .ok x →
      WellFormed (.float x)
  | bool (value : Bool) : WellFormed (.bool value)

/-- Paths have segments, but for the shared state as the receiver of a call. A path of several
segments in the model does not begin like one in the shared state. -/
inductive Expr.WellFormed : Expr → Prop
  | literal {value : Literal} : value.WellFormed → WellFormed (.literal value)
  | field {path : List String} : path ≠ [] → (∀ s ∈ path, IsIdentifier s) →
      (2 ≤ path.length → path.head? ≠ some "shared") → WellFormed (.field path)
  | shared {path : List String} : path ≠ [] → (∀ s ∈ path, IsIdentifier s) →
      WellFormed (.shared path)
  | call {receiver : Expr} {method : String} {args : List Expr} : WellFormed receiver →
      IsIdentifier method → (∀ a ∈ args, WellFormed a) → WellFormed (.call receiver method args)
  | sharedCall {method : String} {args : List Expr} : IsIdentifier method →
      (∀ a ∈ args, WellFormed a) →
      WellFormed (.call (.shared []) method args)
  | binary {op : BinaryOp} {left right : Expr} : WellFormed left → WellFormed right →
      WellFormed (.binary op left right)
  | unary {op : UnaryOp} {operand : Expr} : WellFormed operand → WellFormed (.unary op operand)
  | conditional {c t e : Expr} : WellFormed c → WellFormed t → WellFormed e →
      WellFormed (.conditional c t e)

namespace Piece

/-- The literal, or the name, is one that has a text. -/
def WellFormed : Piece → Prop
  | .literal value => value.WellFormed
  | .name text => IsIdentifier text
  | .keyword _ | .symbol _ => True

theorem exists_spelledBy {p : Piece} (h : p.WellFormed) : ∃ text, p.SpelledBy text := by
  cases p with
  | literal value =>
      cases h with
      | string value => exact ⟨_, .string value (.inl rfl)⟩
      | integer _ => exact ⟨_, .integer _⟩
      | float hw hp hwhole hpart hx => exact ⟨_, .float hw hp hwhole hpart hx⟩
      | bool value => cases value <;> exact ⟨_, by constructor⟩
  | name text => exact ⟨_, .name text⟩
  | keyword word => exact ⟨_, .keyword word⟩
  | symbol sign => exact ⟨_, .symbol sign⟩

@[simp] theorem wellFormed_literal (value : Literal) :
    (literal value).WellFormed ↔ value.WellFormed := Iff.rfl

@[simp] theorem wellFormed_name (text : String) : (name text).WellFormed ↔ IsIdentifier text :=
  Iff.rfl

@[simp] theorem wellFormed_keyword (word : Keyword) : (keyword word).WellFormed := trivial

@[simp] theorem wellFormed_symbol (sign : Symbol) : (symbol sign).WellFormed := trivial

end Piece

namespace Expr

theorem bracketedIf_wellFormed {ps : List Piece} (h : ∀ p ∈ ps, p.WellFormed) (c : Bool) :
    ∀ p ∈ bracketedIf c ps, p.WellFormed := by
  cases c with
  | false => exact h
  | true => simpa [bracketedIf, bracketed, or_imp, forall_and] using h

theorem pathPieces_cons_cons (s t : String) (path : List String) :
    pathPieces (s :: t :: path) = .name s :: .symbol .dot :: pathPieces (t :: path) := rfl

theorem pathPieces_wellFormed {path : List String} (h : ∀ s ∈ path, IsIdentifier s) :
    ∀ p ∈ pathPieces path, p.WellFormed := by
  induction path with
  | nil => simp [pathPieces]
  | cons s path ih =>
      rw [List.forall_mem_cons] at h
      cases path with
      | nil => simpa [pathPieces] using h.1
      | cons t path =>
          rw [pathPieces_cons_cons, List.forall_mem_cons, List.forall_mem_cons]
          exact ⟨h.1, trivial, ih h.2⟩

theorem argumentPieces_wellFormed {args : List Expr}
    (h : ∀ a ∈ args, ∀ p ∈ a.pieces, p.WellFormed) : ∀ p ∈ argumentPieces args, p.WellFormed := by
  induction args with
  | nil => simp [argumentPieces]
  | cons a args ih =>
      rw [List.forall_mem_cons] at h
      cases args with
      | nil => exact h.1
      | cons b args =>
          rw [argumentPieces, List.forall_mem_append, List.forall_mem_cons]
          exact ⟨h.1, trivial, ih h.2⟩

theorem callPieces_wellFormed {receiver : Expr} {method : String} {args : List Expr}
    (hreceiver : ∀ p ∈ receiver.pieces, p.WellFormed) (hmethod : IsIdentifier method)
    (hargs : ∀ a ∈ args, ∀ p ∈ a.pieces, p.WellFormed) :
    ∀ p ∈ (Expr.call receiver method args).pieces, p.WellFormed := by
  have hbefore : ∀ p ∈ receiverPieces receiver receiver.pieces, p.WellFormed := by
    rw [receiverPieces]
    split
    · simp
    · rw [List.forall_mem_append]
      exact ⟨bracketedIf_wellFormed hreceiver _, by simp⟩
  rw [pieces, List.forall_mem_append, List.forall_mem_cons, List.forall_mem_cons,
    List.forall_mem_append]
  exact ⟨hbefore, hmethod, trivial, argumentPieces_wellFormed hargs, by simp⟩

theorem isIdentifier_shared : IsIdentifier "shared" :=
  ⟨⟨'s', ['h', 'a', 'r', 'e', 'd'], by decide, by decide, List.all_eq_true.mp (by decide)⟩,
    by decide⟩

theorem WellFormed.pieces {e : Expr} (h : e.WellFormed) : ∀ p ∈ e.pieces, p.WellFormed := by
  induction h with
  | literal h => simpa [Expr.pieces] using h
  | field _ h _ => exact pathPieces_wellFormed h
  | shared _ h => exact pathPieces_wellFormed (List.forall_mem_cons.mpr ⟨isIdentifier_shared, h⟩)
  | call _ hmethod _ ihr ihargs => exact callPieces_wellFormed ihr hmethod ihargs
  | sharedCall hmethod _ ihargs =>
      refine callPieces_wellFormed ?_ hmethod ihargs
      exact pathPieces_wellFormed (by simpa using isIdentifier_shared)
  | binary _ _ ihl ihr =>
      rw [Expr.pieces, List.forall_mem_append, List.forall_mem_cons]
      exact ⟨bracketedIf_wellFormed ihl _, trivial, bracketedIf_wellFormed ihr _⟩
  | unary _ ih =>
      rw [Expr.pieces, List.forall_mem_cons]
      exact ⟨trivial, bracketedIf_wellFormed ih _⟩
  | conditional _ _ _ ihc iht ihe =>
      rw [Expr.pieces, List.forall_mem_cons, List.forall_mem_append, List.forall_mem_cons,
        List.forall_mem_append, List.forall_mem_cons]
      exact ⟨trivial, bracketedIf_wellFormed ihc _, trivial, iht, trivial, ihe⟩

theorem WellFormed.exists_renderedBy {e : Expr} (h : e.WellFormed) : ∃ text, e.RenderedBy text := by
  have htexts : ∃ texts, List.Forall₂ Piece.SpelledBy e.pieces texts := by
    have hpieces := h.pieces
    generalize e.pieces = ps at hpieces
    induction ps with
    | nil => exact ⟨[], .nil⟩
    | cons p ps ih =>
        rw [List.forall_mem_cons] at hpieces
        obtain ⟨text, hp⟩ := Piece.exists_spelledBy hpieces.1
        obtain ⟨texts, hps⟩ := ih hpieces.2
        exact ⟨text :: texts, .cons hp hps⟩
  obtain ⟨texts, htexts⟩ := htexts
  exact ⟨_, texts, htexts, rfl⟩

end Expr
end UiMarkup
