import UiMarkup.Command.Printing
import UiMarkup.Console.Tree

/-!
The command that shows an expression as a tree.
-/

namespace UiMarkup.Command

def literalText : Literal → String
  | .string value => "string " ++ (Datum.string value).innerText
  | .integer value => "integer " ++ (Datum.integer value).innerText
  | .float value => "float " ++ (Datum.float value).innerText
  | .bool value => "bool " ++ (Datum.bool value).innerText

def exprLabel : Expr → String
  | .literal l => "Literal " ++ literalText l
  | .field path => "Field " ++ String.intercalate "." path
  | .shared path => "Shared " ++ String.intercalate "." path
  | .call _ method _ => "Call ." ++ method ++ "()"
  | .binary op _ _ => "Binary " ++ op.spelling
  | .unary op _ => "Unary " ++ op.spelling
  | .conditional _ _ _ => "If"

/-- An expression and its parts, where labels may have tags. -/
def exprNode (e : Expr) (parts : Printing (List Console.Tree)) : Printing Console.Tree := do
  return .node (← unstyled (exprLabel e)) (← parts)

mutual

def exprTree : Expr → Printing Console.Tree
  | .literal l => exprNode (.literal l) (pure [])
  | .field path => exprNode (.field path) (pure [])
  | .shared path => exprNode (.shared path) (pure [])
  | .call receiver method args => exprNode (.call receiver method args) do
    return (← exprTree receiver) :: (← exprTrees args)
  | .binary op left right =>
    exprNode (.binary op left right) do return [← exprTree left, ← exprTree right]
  | .unary op operand => exprNode (.unary op operand) do return [← exprTree operand]
  | .conditional c t e =>
    exprNode (.conditional c t e) do return [← exprTree c, ← exprTree t, ← exprTree e]

def exprTrees : List Expr → Printing (List Console.Tree)
  | [] => pure []
  | e :: es => do return (← exprTree e) :: (← exprTrees es)

end

/-- Prints an error, the expression, and a sign below the place of the error. -/
def printExprError (source : String) (e : ExprError) : Printing Unit := do
  printStyled ("[bold red]error[/bold red] " ++ Console.literal e.message)
  printStyled ("  " ++ Console.literal source)
  printStyled ("  " ++ String.ofList (List.replicate e.offset ' ') ++ "[bold red]^[/bold red]")

def expression (source : String) : Printing Nat := do
  match ExprParser.parse source.toList with
  | .error (.number fault) => throw (.number fault)
  | .error (.malformed e) => do
    printExprError source e
    return failureCode
  | .ok e => do
    let label ← unstyled ("[bold]" ++ Console.literal source ++ "[/bold]")
    write (Console.Tree.node label [← exprTree e]).printed
    return success

end UiMarkup.Command
