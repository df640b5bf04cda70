import UiMarkup.Expr.Lexer
import UiMarkup.Expr.Syntax

/-!
From tokens to expressions. A conditional binds loosest; then come the binary operators in five
levels, all of them left-associative, the prefix operators, and method calls. A path is as long as
it can be, and expressions nest to any depth.
-/

namespace UiMarkup.ExprParser

/-- The levels of binary operators, the loosest first, and the operands below them. -/
inductive Level
  | disjunction | conjunction | comparison | sum | product | operand
  deriving DecidableEq, Repr

/-- The level of the operands of an operator. -/
def Level.tighter : Level → Level
  | .disjunction => .conjunction
  | .conjunction => .comparison
  | .comparison => .sum
  | .sum => .product
  | .product => .operand
  | .operand => .operand

/-- How many levels lie below. -/
def Level.rank : Level → Nat
  | .disjunction => 5
  | .conjunction => 4
  | .comparison => 3
  | .sum => 2
  | .product => 1
  | .operand => 0

theorem Level.rank_tighter {l : Level} (h : l ≠ .operand) : l.tighter.rank < l.rank := by
  cases l <;> first | exact absurd rfl h | decide

theorem Level.rank_le (l : Level) : l.rank ≤ 5 := by
  cases l <;> decide

/-- The operator of a level that a symbol stands for. -/
def Level.operator? : Level → Symbol → Option BinaryOp
  | .disjunction, .or => some .or
  | .conjunction, .and => some .and
  | .comparison, .eq => some .eq
  | .comparison, .ne => some .ne
  | .comparison, .lt => some .lt
  | .comparison, .le => some .le
  | .comparison, .gt => some .gt
  | .comparison, .ge => some .ge
  | .sum, .plus => some .add
  | .sum, .minus => some .sub
  | .product, .star => some .mul
  | .product, .slash => some .div
  | _, _ => none

def prefixOp? : Lexeme → Option UnaryOp
  | .symbol .bang => some .not
  | .symbol .minus => some .neg
  | _ => none

/-- The first segment of a path into the shared state. -/
def sharedRoot : String := "shared"

/-- The receiver of a call that names none. -/
def selfReceiver : String := "self"

/-- Something read from tokens, and the tokens left, which are fewer than a bound. -/
structure Parsed (α : Type) (bound : Nat) where
  value : α
  rest : List Token
  shorter : rest.length < bound

/-- The same under a larger bound. -/
def Parsed.widen {α : Type} {m n : Nat} (p : Parsed α m) (h : m ≤ n) : Parsed α n :=
  ⟨p.value, p.rest, Nat.lt_of_lt_of_le p.shorter h⟩

/-- The complaint that something else was expected than the first of the tokens. -/
def missing (stop : Nat) (what : Expected) : List Token → ExprFault
  | [] => .malformed ⟨.missing what none, stop⟩
  | t :: _ => .malformed ⟨.missing what (some t.lexeme.text), t.offset⟩

/-- The tokens after a given first lexeme. -/
def expect (stop : Nat) (l : Lexeme) (what : Expected) :
    (ts : List Token) → Except ExprFault (Parsed Unit ts.length)
  | [] => .error (missing stop what [])
  | t :: ts => if t.lexeme = l then .ok ⟨(), ts, by simp⟩ else .error (missing stop what (t :: ts))

/-- The further segments of a path, as many as there are. -/
def segments : (ts : List Token) → Parsed (List String) (ts.length + 1)
  | ⟨.symbol .dot, _, _⟩ :: ⟨.name n, _, _⟩ :: ts =>
    let more := segments ts
    ⟨n :: more.value, more.rest, by have := more.shorter; simp only [List.length_cons]; omega⟩
  | ts => ⟨[], ts, by simp⟩

/-- The path that its segments denote. -/
def pathExpr : List String → Expr
  | [] => .field []
  | first :: [] => .field [first]
  | first :: more => if first = sharedRoot then .shared more else .field (first :: more)

/-- The call of a path's last segment on the rest of the path. -/
def pathCall (path : List String) (args : List Expr) : Expr :=
  let method := path.getLastD ""
  let receiver := path.dropLast
  if path.head? = some sharedRoot ∧ 1 < path.length then
    .call (.shared (receiver.drop 1)) method args
  else if receiver.isEmpty then .call (.ofString selfReceiver) method args
  else .call (.field receiver) method args

/-- A literal that is one token. -/
def literal? : Lexeme → Option (Except Number.Fault Literal)
  | .string value => some (.ok (.string value))
  | .integer digits => some ((Number.readWhole digits.toList).map .integer)
  | .float digits => some ((Number.readFloat digits.toList).map .float)
  | .keyword .trueValue => some (.ok (.bool true))
  | .keyword .falseValue => some (.ok (.bool false))
  | _ => none

mutual

/-- A conditional, or a chain of binary operators. -/
def expression (stop : Nat) (ts : List Token) : Except ExprFault (Parsed Expr ts.length) :=
  match ts with
  | ⟨.keyword .ifWord, _, _⟩ :: after => do
    let c ← binary stop .disjunction after
    let t ← expect stop (.keyword .thenWord) .thenKeyword c.rest
    have h₁ : t.rest.length < after.length := Nat.lt_trans t.shorter c.shorter
    let yes ← expression stop t.rest
    let e ← expect stop (.keyword .elseWord) .elseKeyword yes.rest
    have h₂ : e.rest.length < after.length := Nat.lt_trans e.shorter (Nat.lt_trans yes.shorter h₁)
    let no ← expression stop e.rest
    return ⟨.conditional c.value yes.value no.value, no.rest,
      by have := no.shorter; simp only [List.length_cons]; omega⟩
  | ts => binary stop .disjunction ts
  termination_by ts.length * 16 + 9
  decreasing_by
  · simp only [List.length_cons, Level.rank]; omega
  · simp only [List.length_cons]; omega
  · simp only [List.length_cons]; omega
  · simp only [Level.rank]; omega

/-- A chain of the operators of one level. -/
def binary (stop : Nat) (level : Level) (ts : List Token) :
    Except ExprFault (Parsed Expr ts.length) :=
  if _h : level = .operand then unary stop ts
  else do
    let first ← binary stop level.tighter ts
    have := first.shorter
    let chain ← binaryTail stop level first.value first.rest
    return chain.widen this
  termination_by ts.length * 16 + 3 + level.rank
  decreasing_by
  · omega
  · have := Level.rank_tighter _h; omega
  · omega

/-- The operators of a level and their right operands, after the left one. -/
def binaryTail (stop : Nat) (level : Level) (left : Expr) (ts : List Token) :
    Except ExprFault (Parsed Expr (ts.length + 1)) :=
  match ts with
  | ⟨.symbol s, o, n⟩ :: after =>
    match level.operator? s with
    | some op => do
      let right ← binary stop level.tighter after
      have := right.shorter
      let chain ← binaryTail stop level (.binary op left right.value) right.rest
      return chain.widen (by simp only [List.length_cons]; omega)
    | none => return ⟨left, ⟨.symbol s, o, n⟩ :: after, by simp⟩
  | ts => return ⟨left, ts, by simp⟩
  termination_by ts.length * 16 + 9
  decreasing_by
  · simp only [List.length_cons]; have := Level.rank_le level.tighter; omega
  · simp only [List.length_cons]; omega

/-- Prefix operators before an operand. -/
def unary (stop : Nat) (ts : List Token) : Except ExprFault (Parsed Expr ts.length) :=
  match ts with
  | [] => .error (missing stop .operand [])
  | t :: after =>
    match prefixOp? t.lexeme with
    | some op => do
      let operand ← unary stop after
      return ⟨.unary op operand.value, operand.rest,
        by have := operand.shorter; simp only [List.length_cons]; omega⟩
    | none => do
      let first ← primary stop t after
      have := first.shorter
      let chain ← calls stop first.value first.rest
      return chain.widen this
  termination_by ts.length * 16 + 2
  decreasing_by
  · simp_wf
  · simp only [List.length_cons]; omega
  · simp only [List.length_cons]; simp only [List.length_cons] at this; omega

/-- The method calls on a receiver. -/
def calls (stop : Nat) (receiver : Expr) (ts : List Token) :
    Except ExprFault (Parsed Expr (ts.length + 1)) :=
  match ts with
  | ⟨.symbol .dot, _, _⟩ :: after =>
    match after with
    | ⟨.name method, _, _⟩ :: ⟨.symbol .leftParen, _, _⟩ :: inner => do
      let args ← arguments stop inner
      have := args.shorter
      let chain ← calls stop (.call receiver method args.value) args.rest
      return chain.widen (by simp only [List.length_cons]; omega)
    | ⟨.name method, _, _⟩ :: other => .error (missing stop (.argumentsOf method) other)
    | other => .error (missing stop .methodName other)
  | ts => return ⟨receiver, ts, by simp⟩
  termination_by ts.length * 16 + 1
  decreasing_by
  · simp only [List.length_cons]; omega
  · simp only [List.length_cons]; omega

/-- A literal, a path, a call on a path, or an expression in parentheses,
from its first token on. -/
def primary (stop : Nat) (t : Token) (after : List Token) :
    Except ExprFault (Parsed Expr (t :: after).length) :=
  match literal? t.lexeme with
  | some (.ok l) => return ⟨.literal l, after, by simp⟩
  | some (.error fault) => .error (.number fault)
  | none =>
    match t.lexeme with
    | .name first =>
      let more := segments after
      match h : more.rest with
      | ⟨.symbol .leftParen, _, _⟩ :: inner => do
        have : inner.length + 1 < after.length + 1 := by
          have := more.shorter; rw [h] at this; simpa using this
        let args ← arguments stop inner
        return ⟨pathCall (first :: more.value) args.value, args.rest,
          by have := args.shorter; simp only [List.length_cons]; omega⟩
      | rest =>
        return ⟨pathExpr (first :: more.value), rest,
          by have := more.shorter; rw [h] at this; simpa using this⟩
    | .symbol .leftParen => do
      let inner ← expression stop after
      let close ← expect stop (.symbol .rightParen) .closingParen inner.rest
      return ⟨inner.value, close.rest,
        by have := close.shorter; have := inner.shorter; simp only [List.length_cons]; omega⟩
    | _ => .error (missing stop .operand (t :: after))
  termination_by after.length * 16 + 17
  decreasing_by
  · omega
  · simp_wf

/-- The arguments of a call after the opening parenthesis, up to and with the closing one. -/
def arguments (stop : Nat) (ts : List Token) : Except ExprFault (Parsed (List Expr) ts.length) :=
  match ts with
  | ⟨.symbol .rightParen, _, _⟩ :: after => return ⟨[], after, by simp⟩
  | ts => argumentList stop ts
  termination_by ts.length * 16 + 11
  decreasing_by simp_wf

/-- One argument at least, and commas between them. -/
def argumentList (stop : Nat) (ts : List Token) :
    Except ExprFault (Parsed (List Expr) ts.length) := do
  let first ← expression stop ts
  have := first.shorter
  match h : first.rest with
  | ⟨.symbol .comma, _, _⟩ :: after =>
    have : after.length + 1 < ts.length := by rw [h] at this; simpa using this
    let more ← argumentList stop after
    return ⟨first.value :: more.value, more.rest, by have := more.shorter; omega⟩
  | rest =>
    let close ← expect stop (.symbol .rightParen) .argumentEnd rest
    return ⟨[first.value], close.rest, by
      have := close.shorter; have := congrArg List.length h; omega⟩
  termination_by ts.length * 16 + 10
  decreasing_by
  · simp_wf
  · omega

end

/-- The expression that a text is. -/
def parse (source : List Char) : Except ExprFault Expr :=
  match Lexer.scan source with
  | .error e => .error (.malformed e)
  | .ok ([], _) => .error (.malformed ⟨.empty, 0⟩)
  | .ok (ts, stop) => do
    let e ← expression stop ts
    match e.rest with
    | [] => return e.value
    | rest => .error (missing stop .endOfInput rest)

end UiMarkup.ExprParser
