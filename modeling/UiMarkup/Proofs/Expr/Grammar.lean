import UiMarkup.Expr.Parser

/-!
The grammar of binding expressions, as a relation between lexemes and trees that knows no parser.

Operators stand on five levels and level 6 is that of the prefix operators. A chain of one level
leans to the left: its left operand may be a chain of the same level, its right one is of the next.
-/

namespace UiMarkup

/-- An operator of a higher level binds tighter. -/
def BinaryOp.precedence : BinaryOp → Nat
  | .or => 1
  | .and => 2
  | .eq | .ne | .lt | .le | .gt | .ge => 3
  | .add | .sub => 4
  | .mul | .div => 5

def BinaryOp.symbol : BinaryOp → Symbol
  | .eq => .eq
  | .ne => .ne
  | .lt => .lt
  | .le => .le
  | .gt => .gt
  | .ge => .ge
  | .and => .and
  | .or => .or
  | .add => .plus
  | .sub => .minus
  | .mul => .star
  | .div => .slash

def UnaryOp.symbol : UnaryOp → Symbol
  | .not => .bang
  | .neg => .minus

theorem BinaryOp.spelling_symbol (op : BinaryOp) : op.symbol.spelling = op.spelling := by
  cases op <;> rfl

theorem UnaryOp.spelling_symbol (op : UnaryOp) : op.symbol.spelling = op.spelling := by
  cases op <;> rfl

/-- A number token has a value. -/
def Lexeme.Convertible : Lexeme → Prop
  | .integer digits => ∃ n, Number.readWhole digits.toList = .ok n
  | .float digits => ∃ x, Number.readFloat digits.toList = .ok x
  | _ => True

namespace ExprParser

def lexemes (ts : List Token) : List Lexeme := ts.map Token.lexeme

@[simp] theorem lexemes_nil : lexemes [] = [] := rfl

@[simp] theorem lexemes_cons (t : Token) (ts : List Token) :
    lexemes (t :: ts) = t.lexeme :: lexemes ts := rfl

/-- The segments of a path with dots between them. -/
def pathLexemes (path : List String) : List Lexeme :=
  (path.map Lexeme.name).intersperse (.symbol .dot)

/-- What a path reads. -/
def accessed : List String → Expr
  | "shared" :: segment :: path => .shared (segment :: path)
  | path => .field path

/-- What a call reads its method from, by the segments before the method. -/
def receiver : List String → Expr
  | [] => .literal (.string "self")
  | "shared" :: path => .shared path
  | path => .field path

/-- The kinds of phrases, each with the tree that the phrase stands for. -/
inductive Phrase
  | expression (e : Expr)
  | level (k : Nat) (e : Expr)
  | chain (e : Expr)
  | primary (e : Expr)
  | arguments (es : List Expr)
  | items (es : List Expr)

/-- A path takes all the segments it can: no method is called on a bare path by a dot, since the
method would be its last segment. -/
inductive Derives : List Lexeme → Phrase → Prop
  | conditional {ls ms ns : List Lexeme} {c t e : Expr} :
      Derives ls (.level 1 c) → Derives ms (.expression t) → Derives ns (.expression e) →
      Derives (Lexeme.keyword .ifWord ::
        (ls ++ .keyword .thenWord :: (ms ++ .keyword .elseWord :: ns)))
        (.expression (.conditional c t e))
  | operators {ls : List Lexeme} {e : Expr} : Derives ls (.level 1 e) → Derives ls (.expression e)
  | binary {ls ms : List Lexeme} {l r : Expr} (op : BinaryOp) :
      Derives ls (.level op.precedence l) → Derives ms (.level (op.precedence + 1) r) →
      Derives (ls ++ .symbol op.symbol :: ms) (.level op.precedence (.binary op l r))
  | tighter {ls : List Lexeme} {k : Nat} {e : Expr} :
      k ≤ 5 → Derives ls (.level (k + 1) e) → Derives ls (.level k e)
  | unary {ls : List Lexeme} {e : Expr} (op : UnaryOp) :
      Derives ls (.level 6 e) → Derives (.symbol op.symbol :: ls) (.level 6 (.unary op e))
  | operand {ls : List Lexeme} {e : Expr} : Derives ls (.chain e) → Derives ls (.level 6 e)
  | methodCall {ls ms : List Lexeme} {e : Expr} {method : String} {es : List Expr} :
      Derives ls (.chain e) → (∀ path, ls ≠ pathLexemes path) → Derives ms (.arguments es) →
      Derives (ls ++ Lexeme.symbol .dot :: .name method :: .symbol .leftParen ::
        (ms ++ [.symbol .rightParen]))
        (.chain (.call e method es))
  | head {ls : List Lexeme} {e : Expr} : Derives ls (.primary e) → Derives ls (.chain e)
  | string (value : String) : Derives [.string value] (.primary (.literal (.string value)))
  | integer {digits : String} {n : Int} : Number.readWhole digits.toList = .ok n →
      Derives [.integer digits] (.primary (.literal (.integer n)))
  | float {digits : String} {x : Float} : Number.readFloat digits.toList = .ok x →
      Derives [.float digits] (.primary (.literal (.float x)))
  | trueValue : Derives [.keyword .trueValue] (.primary (.literal (.bool true)))
  | falseValue : Derives [.keyword .falseValue] (.primary (.literal (.bool false)))
  | path {path : List String} : path ≠ [] → Derives (pathLexemes path) (.primary (accessed path))
  | pathCall {ms : List Lexeme} {path : List String} {method : String} {es : List Expr} :
      Derives ms (.arguments es) →
      Derives (pathLexemes (path ++ [method]) ++ Lexeme.symbol .leftParen ::
        (ms ++ [.symbol .rightParen]))
        (.primary (.call (receiver path) method es))
  | parentheses {ls : List Lexeme} {e : Expr} : Derives ls (.expression e) →
      Derives (Lexeme.symbol .leftParen :: (ls ++ [.symbol .rightParen])) (.primary e)
  | noArguments : Derives [] (.arguments [])
  | arguments {ls : List Lexeme} {es : List Expr} : Derives ls (.items es) →
      Derives ls (.arguments es)
  | last {ls : List Lexeme} {e : Expr} : Derives ls (.expression e) → Derives ls (.items [e])
  | more {ls ms : List Lexeme} {e : Expr} {es : List Expr} :
      Derives ls (.expression e) → Derives ms (.items es) →
      Derives (ls ++ .symbol .comma :: ms) (.items (e :: es))

/-! Paths. -/

@[simp] theorem pathLexemes_nil : pathLexemes [] = [] := rfl

@[simp] theorem pathLexemes_singleton (s : String) : pathLexemes [s] = [.name s] := rfl

@[simp] theorem pathLexemes_cons_cons (s t : String) (path : List String) :
    pathLexemes (s :: t :: path) = .name s :: .symbol .dot :: pathLexemes (t :: path) := rfl

theorem symbol_mem_pathLexemes {sign : Symbol} {path : List String}
    (h : Lexeme.symbol sign ∈ pathLexemes path) : sign = .dot := by
  induction path with
  | nil => simp at h
  | cons s path ih =>
      cases path with
      | nil => simp at h
      | cons t path =>
          rw [pathLexemes_cons_cons] at h
          simp only [List.mem_cons, reduceCtorEq, false_or, Lexeme.symbol.injEq] at h
          exact h.elim id fun h => ih (by simpa using h)

theorem ne_pathLexemes_of_mem {ls : List Lexeme} (h : Lexeme.symbol .rightParen ∈ ls)
    (path : List String) : ls ≠ pathLexemes path := by
  rintro rfl
  exact absurd (symbol_mem_pathLexemes h) (by decide)

theorem pathLexemes_cons (s : String) (path : List String) :
    ∃ more, pathLexemes (s :: path) = .name s :: more := by
  cases path <;> exact ⟨_, rfl⟩

/-! The tables of the parser and those of the grammar. -/

/-- The precedence of the operators of a level. -/
def Level.precedence (l : Level) : Nat := 6 - l.rank

theorem Level.precedence_tighter {l : Level} (h : l ≠ .operand) :
    l.tighter.precedence = l.precedence + 1 := by
  cases l <;> first | exact absurd rfl h | rfl

theorem Level.eq_operand {l : Level} (h : l.precedence = 6) : l = .operand := by
  cases l <;> first | rfl | exact absurd h (by decide)

theorem Level.operator?_eq_some_iff {l : Level} {s : Symbol} {op : BinaryOp} :
    l.operator? s = some op ↔ op.precedence = l.precedence ∧ op.symbol = s := by
  cases l <;> cases op <;> cases s <;> decide

theorem prefixOp?_eq_some_iff {x : Lexeme} {op : UnaryOp} :
    prefixOp? x = some op ↔ x = .symbol op.symbol := by
  constructor
  · intro h
    unfold prefixOp? at h
    split at h <;> first | exact (by cases h; rfl) | cases h
  · rintro rfl
    cases op <;> rfl

theorem accessed_cons {s : String} (h : s ≠ "shared") (path : List String) :
    accessed (s :: path) = .field (s :: path) := by
  unfold accessed
  split
  · rename_i heq
    exact absurd (List.cons.inj heq).1 h
  · rfl

theorem receiver_cons {s : String} (h : s ≠ "shared") (path : List String) :
    receiver (s :: path) = .field (s :: path) := by
  unfold receiver
  split
  · rename_i heq
    cases heq
  · rename_i heq
    exact absurd (List.cons.inj heq).1 h
  · rfl

theorem pathExpr_eq_accessed {path : List String} (h : path ≠ []) :
    pathExpr path = accessed path := by
  match path, h with
  | [s], _ => simp [pathExpr, accessed]
  | s :: t :: more, _ =>
    by_cases hs : s = "shared"
    · subst hs
      rfl
    · rw [accessed_cons hs, pathExpr, sharedRoot, if_neg hs]
      simp

theorem pathCall_concat (path : List String) (method : String) (args : List Expr) :
    pathCall (path ++ [method]) args = .call (receiver path) method args := by
  simp only [pathCall, List.getLastD_concat, List.dropLast_concat, sharedRoot, selfReceiver]
  cases path with
  | nil => simp [receiver, Expr.ofString]
  | cons s path =>
      by_cases hs : s = "shared"
      · subst hs
        simp [receiver]
      · simp [receiver_cons hs, hs]

theorem derives_of_literal? {x : Lexeme} {l : Literal} (h : literal? x = some (.ok l)) :
    Derives [x] (.primary (.literal l)) := by
  unfold literal? at h
  split at h
  · cases h
    exact Derives.string _
  · rename_i digits
    cases hn : Number.readWhole digits.toList with
    | ok n =>
        rw [hn] at h
        cases h
        exact Derives.integer hn
    | error fault =>
        rw [hn] at h
        cases h
  · rename_i digits
    cases hx : Number.readFloat digits.toList with
    | ok x =>
        rw [hx] at h
        cases h
        exact Derives.float hx
    | error fault =>
        rw [hx] at h
        cases h
  · cases h
    exact Derives.trueValue
  · cases h
    exact Derives.falseValue
  · cases h

/-- A number that has no value is the only literal token without one. -/
theorem not_convertible_of_literal? {x : Lexeme} {fault : Number.Fault}
    (h : literal? x = some (.error fault)) : ¬ x.Convertible := by
  unfold literal? at h
  split at h
  · cases h
  · rename_i digits
    rintro ⟨n, hn⟩
    rw [hn] at h
    cases h
  · rename_i digits
    rintro ⟨x, hx⟩
    rw [hx] at h
    cases h
  · cases h
  · cases h
  · cases h

end ExprParser
end UiMarkup
