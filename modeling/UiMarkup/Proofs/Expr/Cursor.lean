import UiMarkup.Expr.Parser
import UiMarkup.Proofs.Expr.Tokens

/-!
The parser over an index. It looks the tokens of a text, and the mark at its end, up by their index,
which moves on past a token but not past the end. Nothing in its form keeps the index inside of the
list, or makes it end. What one step does is said for an index at which the marks of some tokens
stand and then the end (`Cursor.Stands`).
-/

namespace UiMarkup.ExprParser

/-- What stops a reader over an index: a fault of the expression, an index outside of the list,
arguments that begin with no parenthesis, or calls that nest too deep. -/
inductive Halt
  | refused (fault : ExprFault)
  | outside (index : Nat)
  | unopened (index : Nat)
  | tooDeep
  deriving DecidableEq, Repr

/-- A reader that moves an index. -/
abbrev Cursor (α : Type) : Type := StateT Nat (Except Halt) α

namespace Cursor

section

variable (ms : List Mark)

/-! ### Marks -/

def markAt (index : Nat) : Cursor Mark :=
  match ms[index]? with
  | some m => return m
  | none => throw (.outside index)

def current : Cursor Mark := do markAt ms (← get)

/-- A mark further on, or the last one. -/
def peek (distance : Nat) : Cursor Mark := do markAt ms (min ((← get) + distance) (ms.length - 1))

/-- The mark at the index, which moves on if this is not the end. -/
def advance : Cursor Mark := do
  let m ← current ms
  if m.lexeme.isSome then set ((← get) + 1)
  return m

def sees (l : Lexeme) : Cursor Bool := do return (← current ms).lexeme = some l

def consumeIf (l : Lexeme) : Cursor Bool := do
  if ← sees ms l then
    let _ ← advance ms
    return true
  else return false

def complain {α : Type} (what : Expected) : Cursor α := do
  let m ← current ms
  throw (.refused (.malformed ⟨.missing what (m.lexeme.map Lexeme.text), m.offset⟩))

def expect (l : Lexeme) (what : Expected) : Cursor Unit := do
  if ← sees ms l then
    let _ ← advance ms
    return ()
  else complain ms what

/-! ### Expressions

The first argument of a reader says how deep its calls may nest, where a turn of a
loop counts as a call. -/

/-- The further segments of a path. -/
def segments : Nat → Cursor (List String)
  | 0 => throw .tooDeep
  | depth + 1 => do
    if ← sees ms (.symbol .dot) then
      match (← peek ms 1).lexeme with
      | some (.name text) =>
        let _ ← advance ms
        let _ ← advance ms
        let more ← segments depth
        return text :: more
      | _ => return []
    else return []

mutual

def expression : Nat → Cursor Expr
  | 0 => throw .tooDeep
  | depth + 1 => do
    if ← consumeIf ms (.keyword .ifWord) then
      let c ← binary depth .disjunction
      expect ms (.keyword .thenWord) .thenKeyword
      let yes ← expression depth
      expect ms (.keyword .elseWord) .elseKeyword
      let no ← expression depth
      return .conditional c yes no
    else binary depth .disjunction

def binary : Nat → Level → Cursor Expr
  | 0, _ => throw .tooDeep
  | depth + 1, level => do
    if level = .operand then unary depth
    else
      let first ← binary depth level.tighter
      operators depth level first

/-- The operators of a level and their right operands, as long as there are some. -/
def operators : Nat → Level → Expr → Cursor Expr
  | 0, _, _ => throw .tooDeep
  | depth + 1, level, left => do
    match (← current ms).lexeme with
    | some (.symbol s) =>
      match level.operator? s with
      | some op =>
        let _ ← advance ms
        let right ← binary depth level.tighter
        operators depth level (.binary op left right)
      | none => return left
    | _ => return left

def unary : Nat → Cursor Expr
  | 0 => throw .tooDeep
  | depth + 1 => do
    match (← current ms).lexeme.bind prefixOp? with
    | some op =>
      let _ ← advance ms
      let operand ← unary depth
      return .unary op operand
    | none =>
      let first ← primary depth
      calls depth first

def calls : Nat → Expr → Cursor Expr
  | 0, _ => throw .tooDeep
  | depth + 1, receiver => do
    if ← consumeIf ms (.symbol .dot) then
      match (← current ms).lexeme with
      | some (.name method) =>
        let _ ← advance ms
        if ← sees ms (.symbol .leftParen) then
          let args ← arguments depth
          calls depth (.call receiver method args)
        else complain ms (.argumentsOf method)
      | _ => complain ms .methodName
    else return receiver

def primary : Nat → Cursor Expr
  | 0 => throw .tooDeep
  | depth + 1 => do
    let m ← current ms
    match m.lexeme.bind literal? with
    | some (.ok l) =>
      let _ ← advance ms
      return .literal l
    | some (.error fault) =>
      let _ ← advance ms
      throw (.refused (.number fault))
    | none =>
      match m.lexeme with
      | some (.name first) =>
        let _ ← advance ms
        let more ← segments ms depth
        if ← sees ms (.symbol .leftParen) then
          let args ← arguments depth
          return pathCall (first :: more) args
        else return pathExpr (first :: more)
      | some (.symbol .leftParen) =>
        let _ ← advance ms
        let inner ← expression depth
        expect ms (.symbol .rightParen) .closingParen
        return inner
      | _ => complain ms .operand

def arguments : Nat → Cursor (List Expr)
  | 0 => throw .tooDeep
  | depth + 1 => do
    if ← consumeIf ms (.symbol .leftParen) then
      if ← consumeIf ms (.symbol .rightParen) then return []
      else argumentList depth
    else throw (.unopened (← get))

def argumentList : Nat → Cursor (List Expr)
  | 0 => throw .tooDeep
  | depth + 1 => do
    let first ← expression depth
    if ← consumeIf ms (.symbol .comma) then
      let more ← argumentList depth
      return first :: more
    else
      expect ms (.symbol .rightParen) .argumentEnd
      return [first]

end

/-- All tokens, up to the mark at the end. -/
def whole (depth : Nat) : Cursor Expr := do
  if (← current ms).lexeme.isNone then throw (.refused (.malformed ⟨.empty, 0⟩))
  else
    let e ← expression ms depth
    if (← current ms).lexeme.isNone then return e
    else complain ms .endOfInput

end

/-- The expression that a text is, read from its first token on. -/
def parse (depth : Nat) (source : List Char) : Except Halt Expr :=
  match Lexer.marked source with
  | .error e => .error (.refused (.malformed e))
  | .ok ms => ((whole ms depth).run 0).map Prod.fst

/-! ### Steps -/

section

variable {α β : Type} {q : Cursor α} {k : α → Cursor β} {i j : Nat} {a : α}

theorem run_bind_ok (h : q.run i = .ok (a, j)) : (q >>= k).run i = (k a).run j := by
  rw [StateT.run_bind, h]
  rfl

theorem run_bind_error {halt : Halt} (h : q.run i = .error halt) :
    (q >>= k).run i = .error halt := by
  rw [StateT.run_bind, h]
  rfl

end

/-- At an index stand the marks of these tokens, and then the end. -/
def Stands (ms : List Mark) (stop index : Nat) (us : List Token) : Prop :=
  ms.drop index = us.map Token.mark ++ [.stop stop]

/-- The first mark of tokens and the end. -/
def firstMark (stop : Nat) : List Token → Mark
  | [] => .stop stop
  | u :: _ => u.mark

@[simp] theorem lexeme_firstMark (stop : Nat) (us : List Token) :
    (firstMark stop us).lexeme = us.head?.map Token.lexeme := by
  cases us <;> rfl

theorem exists_cons_of_lexeme {us : List Token} {x : Lexeme}
    (h : us.head?.map Token.lexeme = some x) : ∃ o n more, us = ⟨x, o, n⟩ :: more := by
  cases us with
  | nil => cases h
  | cons u us =>
      cases h
      exact ⟨u.offset, u.length, us, rfl⟩

section

variable {ms : List Mark} {stop i : Nat} {u : Token} {us : List Token}

theorem Stands.getElem? (h : Stands ms stop i us) : ms[i]? = some (firstMark stop us) := by
  rw [← List.head?_drop, h]
  cases us <;> rfl

theorem Stands.tail (h : Stands ms stop i (u :: us)) : Stands ms stop (i + 1) us := by
  rw [Stands, ← List.drop_drop, h]
  rfl

theorem Stands.length_eq (h : Stands ms stop i us) : ms.length = i + us.length + 1 := by
  have hlt : i < ms.length := (List.getElem?_eq_some_iff.mp h.getElem?).1
  have hlength := congrArg List.length h
  simp only [List.length_drop, List.length_append, List.length_map, List.length_singleton]
    at hlength
  omega

theorem run_current (h : Stands ms stop i us) :
    (current ms).run i = .ok (firstMark stop us, i) := by
  rw [current, run_bind_ok (a := i) (j := i) rfl, markAt, h.getElem?]
  rfl

theorem run_advance (h : Stands ms stop i (u :: us)) :
    (advance ms).run i = .ok (u.mark, i + 1) := by
  rw [advance, run_bind_ok (run_current h)]
  rfl

/-- The mark behind a token is there, be it the end. -/
theorem run_peek (h : Stands ms stop i (u :: us)) :
    (peek ms 1).run i = .ok (firstMark stop us, i) := by
  have hmin : min (i + 1) (ms.length - 1) = i + 1 := by
    have := h.length_eq
    rw [List.length_cons] at this
    omega
  rw [peek, run_bind_ok (a := i) (j := i) rfl, hmin, markAt, h.tail.getElem?]
  rfl

theorem run_sees (h : Stands ms stop i us) (l : Lexeme) :
    (sees ms l).run i = .ok (decide (us.head?.map Token.lexeme = some l), i) := by
  rw [sees, run_bind_ok (run_current h), lexeme_firstMark]
  rfl

theorem run_consumeIf {l : Lexeme} (h : Stands ms stop i (u :: us)) (hu : u.lexeme = l) :
    (consumeIf ms l).run i = .ok (true, i + 1) := by
  rw [consumeIf, run_bind_ok (run_sees h l), if_pos (by simp [hu]), run_bind_ok (run_advance h)]
  rfl

theorem run_consumeIf_of_ne {l : Lexeme} (h : Stands ms stop i us)
    (hus : us.head?.map Token.lexeme ≠ some l) : (consumeIf ms l).run i = .ok (false, i) := by
  rw [consumeIf, run_bind_ok (run_sees h l), if_neg (by simpa using hus)]
  rfl

theorem run_complain {α : Type} (h : Stands ms stop i us) (what : Expected) :
    (complain ms what : Cursor α).run i = .error (.refused (missing stop what us)) := by
  rw [complain, run_bind_ok (run_current h)]
  cases us <;> rfl

end

end Cursor

end UiMarkup.ExprParser
