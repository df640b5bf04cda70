/-!
Binding expressions. An expression reads the local model or the shared state
and combines what it reads.
-/

namespace UiMarkup

inductive BinaryOp
  | eq | ne | lt | le | gt | ge | and | or | add | sub | mul | div
  deriving DecidableEq, Repr

def BinaryOp.spelling : BinaryOp → String
  | .eq => "=="
  | .ne => "!="
  | .lt => "<"
  | .le => "<="
  | .gt => ">"
  | .ge => ">="
  | .and => "&&"
  | .or => "||"
  | .add => "+"
  | .sub => "-"
  | .mul => "*"
  | .div => "/"

inductive UnaryOp
  | not | neg
  deriving DecidableEq, Repr

def UnaryOp.spelling : UnaryOp → String
  | .not => "!"
  | .neg => "-"

inductive Literal
  | string (value : String)
  | integer (value : Int)
  | float (value : Float)
  | bool (value : Bool)
  deriving DecidableEq

/-- A `field` path starts in the local model, a `shared` path in the shared state. -/
inductive Expr
  | literal (value : Literal)
  | field (path : List String)
  | shared (path : List String)
  | call (receiver : Expr) (method : String) (args : List Expr)
  | binary (op : BinaryOp) (left right : Expr)
  | unary (op : UnaryOp) (operand : Expr)
  | conditional (condition thenBranch elseBranch : Expr)

namespace Expr

def ofString (s : String) : Expr := .literal (.string s)

instance : Inhabited Expr := ⟨ofString ""⟩

def children : Expr → List Expr
  | .literal _ | .field _ | .shared _ => []
  | .call receiver _ args => receiver :: args
  | .binary _ left right => [left, right]
  | .unary _ operand => [operand]
  | .conditional c t e => [c, t, e]

mutual

/-- The expression and all its parts, each before its own parts. -/
def walk : Expr → List Expr
  | .literal l => [.literal l]
  | .field p => [.field p]
  | .shared p => [.shared p]
  | .call receiver method args => .call receiver method args :: (walk receiver ++ walkAll args)
  | .binary op left right => .binary op left right :: (walk left ++ walk right)
  | .unary op operand => .unary op operand :: walk operand
  | .conditional c t e => .conditional c t e :: (walk c ++ walk t ++ walk e)

def walkAll : List Expr → List Expr
  | [] => []
  | e :: es => walk e ++ walkAll es

end

def isShared : Expr → Bool
  | .shared _ => true
  | _ => false

def isField : Expr → Bool
  | .field _ => true
  | _ => false

/-- Some part reads the shared state. -/
def usesShared (e : Expr) : Bool := e.walk.any isShared

/-- Some part reads the local model. -/
def usesModel (e : Expr) : Bool := e.walk.any isField

/-! ### Equality -/

mutual

def same : Expr → Expr → Bool
  | .literal l, .literal l' => l = l'
  | .field p, .field p' => p = p'
  | .shared p, .shared p' => p = p'
  | .call receiver method args, .call receiver' method' args' =>
    same receiver receiver' && method = method' && sameAll args args'
  | .binary op left right, .binary op' left' right' =>
    op = op' && same left left' && same right right'
  | .unary op operand, .unary op' operand' => op = op' && same operand operand'
  | .conditional c t e, .conditional c' t' e' => same c c' && same t t' && same e e'
  | _, _ => false

def sameAll : List Expr → List Expr → Bool
  | [], [] => true
  | e :: es, e' :: es' => same e e' && sameAll es es'
  | _, _ => false

end

mutual

theorem same_iff (a b : Expr) : same a b = true ↔ a = b := by
  cases a <;> cases b <;> simp [same, same_iff, sameAll_iff, and_assoc]

theorem sameAll_iff (as bs : List Expr) : sameAll as bs = true ↔ as = bs := by
  cases as <;> cases bs <;> simp [sameAll, same_iff, sameAll_iff]

end

instance : DecidableEq Expr := fun a b => decidable_of_iff _ (same_iff a b)

end Expr
end UiMarkup
