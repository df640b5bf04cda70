import UiMarkup.Number.Literal
import UiMarkup.Report

/-!
What can be wrong with the text of an expression.
-/

namespace UiMarkup

/-- What a parser needs at a place where the text does not have it. -/
inductive Expected
  | thenKeyword
  | elseKeyword
  | methodName
  | argumentsOf (method : String)
  | operand
  | closingParen
  | argumentEnd
  | endOfInput
  deriving DecidableEq, Repr

inductive ExprProblem
  | unterminatedString
  | unexpectedCharacter (c : Char)
  | empty
  | missing (what : Expected) (found : Option String)
  deriving DecidableEq, Repr

/-- A problem with its place in the expression, counted in characters. -/
structure ExprError where
  problem : ExprProblem
  offset : Nat
  deriving DecidableEq, Repr

/-- An expression is refused for its form, or because a number in it cannot be read. -/
inductive ExprFault
  | malformed (error : ExprError)
  | number (fault : Number.Fault)
  deriving DecidableEq, Repr

def Expected.message : Expected → String
  | .thenKeyword => "Expected 'then'"
  | .elseKeyword => "Expected 'else'"
  | .methodName => "Expected method name after '.'"
  | .argumentsOf method => "Expected '(' after method name '" ++ method ++ "'"
  | .operand => "Expected expression"
  | .closingParen => "Expected ')'"
  | .argumentEnd => "Expected ',' or ')'"
  | .endOfInput => "Unexpected trailing input"

def ExprProblem.message : ExprProblem → String
  | .unterminatedString => "Unterminated string literal"
  | .unexpectedCharacter c => "Unexpected character '" ++ String.singleton c ++ "'"
  | .empty => "Empty expression"
  | .missing what none => what.message ++ ", found end of expression"
  | .missing what (some text) => what.message ++ ", found '" ++ text ++ "'"

def ExprError.message (e : ExprError) : String := e.problem.message

/-- The code that all errors of expressions share. -/
def ExprError.code : String := "EXPRESSION_ERROR"

/-- The error of an expression that stands at a place. -/
def ExprError.report (e : ExprError) (span : Option Span) : Report :=
  { message := e.message, code := some ExprError.code, span }

end UiMarkup
