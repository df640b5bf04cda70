import UiMarkup.Proofs.Expr.Parse

/-!
Where the paths of an expression start can be read off its tokens. A name with no dot before it
begins a path, unless it is that of a call; any other name is a further segment or a method. So the
roots of the paths in a tree are, one after the other, those of the lexemes that the tree is derived
from (`Derives.roots_eq`).
-/

namespace UiMarkup

/-- Where a path starts. -/
inductive PathRoot
  | model | shared
  deriving DecidableEq, Repr

namespace Expr

def root? : Expr → Option PathRoot
  | .field _ => some .model
  | .shared _ => some .shared
  | _ => none

/-- The roots of all paths of an expression, in the order of the walk. -/
def roots (e : Expr) : List PathRoot := e.walk.filterMap root?

theorem walkAll_eq_flatMap (es : List Expr) : walkAll es = es.flatMap walk := by
  induction es with
  | nil => rfl
  | cons e es ih => rw [walkAll, ih, List.flatMap_cons]

@[simp] theorem roots_literal (l : Literal) : (literal l).roots = [] := rfl

@[simp] theorem roots_field (path : List String) : (field path).roots = [.model] := rfl

@[simp] theorem roots_shared (path : List String) : (shared path).roots = [.shared] := rfl

@[simp] theorem roots_call (receiver : Expr) (method : String) (args : List Expr) :
    (call receiver method args).roots = receiver.roots ++ args.flatMap roots := by
  rw [roots, walk, List.filterMap_cons_none rfl, List.filterMap_append, walkAll_eq_flatMap,
    List.filterMap_flatMap]
  rfl

@[simp] theorem roots_binary (op : BinaryOp) (l r : Expr) :
    (binary op l r).roots = l.roots ++ r.roots := by
  rw [roots, walk, List.filterMap_cons_none rfl, List.filterMap_append]
  rfl

@[simp] theorem roots_unary (op : UnaryOp) (e : Expr) : (unary op e).roots = e.roots := by
  rw [roots, walk, List.filterMap_cons_none rfl]
  rfl

@[simp] theorem roots_conditional (c t e : Expr) :
    (conditional c t e).roots = c.roots ++ t.roots ++ e.roots := by
  rw [roots, walk, List.filterMap_cons_none rfl, List.filterMap_append, List.filterMap_append]
  rfl

theorem usesShared_iff_mem_roots {e : Expr} : e.usesShared = true ↔ .shared ∈ e.roots := by
  rw [usesShared, List.any_eq_true, roots, List.mem_filterMap]
  refine exists_congr fun part => and_congr_right fun _ => ?_
  cases part <;> simp [isShared, root?]

theorem usesModel_iff_mem_roots {e : Expr} : e.usesModel = true ↔ .model ∈ e.roots := by
  rw [usesModel, List.any_eq_true, roots, List.mem_filterMap]
  refine exists_congr fun part => and_congr_right fun _ => ?_
  cases part <;> simp [isField, root?]

end Expr

namespace ExprParser

/-! ### Roots in lexemes -/

/-- The root of the path that a lexeme begins, by the lexeme before it and those behind it. -/
def root? (before : Option Lexeme) (x : Lexeme) (after : List Lexeme) : Option PathRoot :=
  match x with
  | .name s =>
    if before = some (.symbol .dot) then none
    else
      match after with
      | .symbol .leftParen :: _ => none
      | .symbol .dot :: .name _ :: _ => if s = sharedRoot then some .shared else some .model
      | _ => some .model
  | _ => none

/-- The roots of the paths that begin in some lexemes, which stand between others. -/
def roots (before : Option Lexeme) (after : List Lexeme) : List Lexeme → List PathRoot
  | [] => []
  | x :: ls => (root? before x (ls ++ after)).toList ++ roots (some x) after ls

variable {before : Option Lexeme} {x : Lexeme} {ls ms after : List Lexeme}

@[simp] theorem roots_nil : roots before after [] = [] := rfl

@[simp] theorem roots_keyword (word : Keyword) : roots before after (.keyword word :: ls) =
    roots (some (.keyword word)) after ls := rfl

@[simp] theorem roots_symbol (sign : Symbol) : roots before after (.symbol sign :: ls) =
    roots (some (.symbol sign)) after ls := rfl

/-- Behind a dot no path begins. -/
@[simp] theorem roots_segment (s : String) : roots (some (.symbol .dot)) after (.name s :: ls) =
    roots (some (.name s)) after ls := rfl

/-- The last of some lexemes, or the one before them. -/
theorem getLast?_cons_or : (x :: ls).getLast?.or before = ls.getLast?.or (some x) := by
  rw [List.getLast?_cons]
  cases ls.getLast? <;> rfl

theorem roots_append : roots before after (ls ++ ms) =
    roots before (ms ++ after) ls ++ roots (ls.getLast?.or before) after ms := by
  induction ls generalizing before with
  | nil => rfl
  | cons x ls ih =>
      rw [List.cons_append, roots, roots, ih, getLast?_cons_or, List.append_assoc,
        List.append_assoc]

theorem mem_roots_iff {root : PathRoot} : root ∈ roots before after ls ↔
    ∃ front x back, ls = front ++ x :: back ∧
      root? (front.getLast?.or before) x (back ++ after) = some root := by
  constructor
  · intro h
    induction ls generalizing before with
    | nil => cases h
    | cons x ls ih =>
        rw [roots, List.mem_append, Option.mem_toList] at h
        obtain h | h := h
        · exact ⟨[], x, ls, rfl, h⟩
        · obtain ⟨front, y, back, rfl, hy⟩ := ih h
          refine ⟨x :: front, y, back, rfl, ?_⟩
          rw [getLast?_cons_or]
          exact hy
  · rintro ⟨front, x, back, rfl, h⟩
    rw [roots_append, roots, h]
    simp

/-! ### Paths -/

/-- What follows some lexemes does not go on with a path at their end. -/
def EndsPath (ls after : List Lexeme) : Prop :=
  ∀ s, ls.getLast? = some (.name s) → ∀ x ∈ after.head?, x ≠ .symbol .leftParen ∧ x ≠ .symbol .dot

theorem EndsPath.nil : EndsPath ls [] := by
  intro s _ x hx
  cases hx

theorem EndsPath.cons (hparen : x ≠ .symbol .leftParen) (hdot : x ≠ .symbol .dot) :
    EndsPath ls (x :: after) := by
  rintro s - y hy
  obtain rfl := Option.some.inj hy
  exact ⟨hparen, hdot⟩

theorem ne_dot (op : BinaryOp) : some (Lexeme.symbol op.symbol) ≠ some (.symbol .dot) := by
  cases op <;> decide

theorem EndsPath.of_operator (op : BinaryOp) : EndsPath ls (.symbol op.symbol :: after) :=
  .cons (by cases op <;> decide) (by cases op <;> decide)

theorem EndsPath.of_append (h : EndsPath (ls ++ ms) after) : EndsPath ms after := by
  intro s hs
  refine h s ?_
  rw [List.getLast?_append, hs]
  rfl

theorem EndsPath.of_cons (h : EndsPath (x :: ls) after) : EndsPath ls after := by
  have h : EndsPath ([x] ++ ls) after := h
  exact h.of_append

theorem roots_segments (path : List String) :
    roots (some (.symbol .dot)) after (pathLexemes path) = [] := by
  induction path with
  | nil => rfl
  | cons s path ih =>
      cases path with
      | nil => rfl
      | cons t path =>
          rw [pathLexemes_cons_cons, roots_segment, roots_symbol]
          exact ih

/-- The root of a path of several segments. -/
theorem roots_pathLexemes (hbefore : before ≠ some (.symbol .dot)) (s t : String)
    (path : List String) :
    roots before after (pathLexemes (s :: t :: path)) =
      [if s = sharedRoot then .shared else .model] := by
  obtain ⟨more, hmore⟩ := pathLexemes_cons t path
  have hroot : root? before (.name s) (.symbol .dot :: pathLexemes (t :: path) ++ after) =
      some (if s = sharedRoot then .shared else .model) := by
    rw [hmore]
    simp only [root?, hbefore, if_false, List.cons_append]
    split <;> rfl
  rw [pathLexemes_cons_cons, roots, hroot, roots_symbol, roots_segments]
  rfl

theorem roots_path (hbefore : before ≠ some (.symbol .dot)) {path : List String} (hne : path ≠ [])
    (hafter : EndsPath (pathLexemes path) after) :
    roots before after (pathLexemes path) = (accessed path).roots := by
  match path, hne with
  | [s], _ =>
    have hroot : root? before (.name s) after = some .model := by
      cases after with
      | nil => simp [root?, hbefore]
      | cons x after =>
          obtain ⟨hparen, hdot⟩ := hafter s rfl x rfl
          simp only [root?, hbefore, if_false]
          split
          · next heq => exact absurd (List.cons.inj heq).1 hparen
          · next heq => exact absurd (List.cons.inj heq).1 hdot
          · rfl
    rw [pathLexemes_singleton, roots, List.nil_append, hroot]
    simp [accessed]
  | s :: t :: path, _ =>
    rw [roots_pathLexemes hbefore]
    by_cases hs : s = "shared"
    · simp [hs, accessed, sharedRoot]
    · simp [hs, accessed_cons hs, sharedRoot]

/-- Of the segments before an opening parenthesis the last one is the method. -/
theorem roots_pathCall (hbefore : before ≠ some (.symbol .dot)) (path : List String)
    (method : String) :
    roots before after (pathLexemes (path ++ [method]) ++ .symbol .leftParen :: ls) =
      (receiver path).roots ++ roots (some (.symbol .leftParen)) after ls := by
  rw [roots_append, roots_symbol]
  congr 1
  cases path with
  | nil => simp [roots, root?, receiver]
  | cons s path =>
      obtain ⟨t, more, hmore⟩ := List.exists_cons_of_ne_nil (List.concat_ne_nil method path)
      have hsplit : s :: path ++ [method] = s :: t :: more := congrArg (s :: ·) hmore
      rw [hsplit, roots_pathLexemes hbefore]
      by_cases hs : s = "shared"
      · simp [hs, receiver, sharedRoot]
      · simp [hs, receiver_cons hs, sharedRoot]

/-! ### Phrases -/

def Phrase.roots : Phrase → List PathRoot
  | .expression e | .level _ e | .chain e | .primary e => e.roots
  | .arguments es | .items es => es.flatMap Expr.roots

/-- No name ends a chain that is no path. -/
theorem Derives.endsPath_of_chain {e : Expr} (h : Derives ls (.chain e))
    (hpath : ∀ path, ls ≠ pathLexemes path) : EndsPath ls after := by
  intro s hs
  exfalso
  cases h with
  | methodCall _ _ _ => simp [List.getLast?_cons] at hs
  | head h =>
      cases h with
      | string _ | integer _ | float _ | trueValue | falseValue => cases hs
      | path _ => exact hpath _ rfl
      | pathCall _ | parentheses _ => simp [List.getLast?_cons] at hs

/-- Between parentheses the lexemes have no others beside them that count. -/
theorem roots_parenthesized {p : Phrase} (ih : ∀ {before : Option Lexeme} {after : List Lexeme},
    before ≠ some (.symbol .dot) → EndsPath ls after → roots before after ls = p.roots) :
    roots (some (.symbol .leftParen)) after (ls ++ [.symbol .rightParen]) = p.roots := by
  have hinner : roots (some (.symbol .leftParen)) ([.symbol .rightParen] ++ after) ls = p.roots :=
    ih nofun (.cons nofun nofun)
  rw [roots_append, hinner, roots_symbol, roots_nil, List.append_nil]

theorem Derives.roots_eq {p : Phrase} (h : Derives ls p) (hbefore : before ≠ some (.symbol .dot))
    (hafter : EndsPath ls after) : roots before after ls = p.roots := by
  induction h generalizing before after with
  | @conditional ls ms ns c t e _ _ _ ihc iht ihe =>
      have hc : roots (some (.keyword .ifWord))
          (.keyword .thenWord :: (ms ++ .keyword .elseWord :: ns) ++ after) ls = c.roots :=
        ihc nofun (.cons nofun nofun)
      have ht : roots (some (.keyword .thenWord)) (.keyword .elseWord :: ns ++ after) ms =
          t.roots :=
        iht nofun (.cons nofun nofun)
      have he : roots (some (.keyword .elseWord)) after ns = e.roots :=
        ihe nofun hafter.of_cons.of_append.of_cons.of_append.of_cons
      rw [roots_keyword, roots_append, roots_keyword, roots_append, roots_keyword, hc, ht,
        he, ← List.append_assoc]
      exact (Expr.roots_conditional c t e).symm
  | operators _ ih | tighter _ _ ih | operand _ ih | head _ ih | arguments _ ih =>
      exact ih hbefore hafter
  | @binary ls ms l r op _ _ ihl ihr =>
      have hl : roots before (.symbol op.symbol :: ms ++ after) ls = l.roots :=
        ihl hbefore (.of_operator op)
      have hr : roots (some (.symbol op.symbol)) after ms = r.roots :=
        ihr (ne_dot op) hafter.of_append.of_cons
      rw [roots_append, roots_symbol, hl, hr]
      exact (Expr.roots_binary op l r).symm
  | @unary ls e op _ ih =>
      have he : roots (some (.symbol op.symbol)) after ls = e.roots :=
        ih (by cases op <;> decide) hafter.of_cons
      rw [roots_symbol, he]
      exact (Expr.roots_unary op e).symm
  | @methodCall ls ms e method es hchain hpath _ ihe ihs =>
      have he : roots before
          (.symbol .dot :: .name method :: .symbol .leftParen :: (ms ++ [.symbol .rightParen]) ++
            after) ls = e.roots :=
        ihe hbefore (hchain.endsPath_of_chain hpath)
      rw [roots_append, roots_symbol, roots_segment, roots_symbol, he, roots_parenthesized ihs]
      exact (Expr.roots_call e method es).symm
  | string _ | integer _ | float _ | trueValue | falseValue => rfl
  | path hne => exact roots_path hbefore hne hafter
  | @pathCall ms path method es _ ihs =>
      rw [roots_pathCall hbefore, roots_parenthesized ihs]
      exact (Expr.roots_call (receiver path) method es).symm
  | parentheses _ ih => rw [roots_symbol, roots_parenthesized ih]; rfl
  | noArguments => rfl
  | @last ls e _ ih =>
      rw [ih hbefore hafter]
      exact (List.append_nil e.roots).symm
  | @more ls ms e es _ _ ihe ihs =>
      have he : roots before (.symbol .comma :: ms ++ after) ls = e.roots :=
        ihe hbefore (.cons nofun nofun)
      have hs : roots (some (.symbol .comma)) after ms = es.flatMap Expr.roots :=
        ihs nofun hafter.of_append.of_cons
      rw [roots_append, roots_symbol, he, hs]
      rfl

/-! ### Texts -/

/-- Some name `shared` has no dot before it, and a dot and a name behind it. -/
def ReadsShared (ls : List Lexeme) : Prop :=
  ∃ (front : List Lexeme) (segment : String) (back : List Lexeme),
    ls = front ++ .name "shared" :: .symbol .dot :: .name segment :: back ∧
    front.getLast? ≠ some (.symbol .dot)

/-- Some name has no dot before it and no opening parenthesis behind it, and is not one that
reads the shared state. -/
def ReadsModel (ls : List Lexeme) : Prop :=
  ∃ (front : List Lexeme) (s : String) (back : List Lexeme), ls = front ++ .name s :: back ∧
    front.getLast? ≠ some (.symbol .dot) ∧
    back.head? ≠ some (.symbol .leftParen) ∧
    ¬ (s = "shared" ∧ ∃ segment more, back = .symbol .dot :: .name segment :: more)

theorem root?_eq_shared_iff : root? before x after = some .shared ↔ x = .name "shared" ∧
    before ≠ some (.symbol .dot) ∧ ∃ segment more,
      after = .symbol .dot :: .name segment :: more := by
  unfold root? sharedRoot
  grind

theorem root?_eq_model_iff : root? before x after = some .model ↔ ∃ s, x = .name s ∧
    before ≠ some (.symbol .dot) ∧ after.head? ≠ some (.symbol .leftParen) ∧
    ¬ (s = "shared" ∧ ∃ segment more, after = .symbol .dot :: .name segment :: more) := by
  unfold root? sharedRoot
  grind [List.head?_eq_some_iff]

theorem shared_mem_roots_iff : .shared ∈ roots none [] ls ↔ ReadsShared ls := by
  simp only [mem_roots_iff, List.append_nil, Option.or_none, root?_eq_shared_iff]
  constructor
  · rintro ⟨front, x, back, rfl, rfl, hbefore, segment, more, rfl⟩
    exact ⟨front, segment, more, rfl, hbefore⟩
  · rintro ⟨front, segment, back, rfl, hbefore⟩
    exact ⟨front, _, _, rfl, rfl, hbefore, segment, back, rfl⟩

theorem model_mem_roots_iff : .model ∈ roots none [] ls ↔ ReadsModel ls := by
  simp only [mem_roots_iff, List.append_nil, Option.or_none, root?_eq_model_iff]
  constructor
  · rintro ⟨front, x, back, rfl, s, rfl, h⟩
    exact ⟨front, s, back, rfl, h⟩
  · rintro ⟨front, s, back, rfl, h⟩
    exact ⟨front, _, back, rfl, s, rfl, h⟩

/-- The tokens of a text tell whether its expression reads the shared state and
whether it reads the model. -/
theorem uses_of_parse {source : List Char} {e : Expr} (h : parse source = .ok e) :
    ∃ ts, Lexer.tokens source = .ok ts ∧ (e.usesShared = true ↔ ReadsShared (lexemes ts)) ∧
      (e.usesModel = true ↔ ReadsModel (lexemes ts)) := by
  obtain ⟨ts, hts, hderives⟩ := exists_tokens_of_parse h
  have hroots : roots none [] (lexemes ts) = e.roots :=
    hderives.roots_eq (Option.some_ne_none _).symm .nil
  refine ⟨ts, hts, ?_, ?_⟩
  · rw [Expr.usesShared_iff_mem_roots, ← hroots, shared_mem_roots_iff]
  · rw [Expr.usesModel_iff_mem_roots, ← hroots, model_mem_roots_iff]

set_option maxRecDepth 4000 in
/-- The method of a shared receiver, a field that is called as the shared state is, and a
call without a receiver. -/
theorem uses_of_parse_sharedCall :
    parse "shared.f(g(), (shared).h())".toList = .ok (.call (.shared []) "f"
      [.call (.literal (.string "self")) "g" [], .call (.field ["shared"]) "h" []]) ∧
      ∃ ts, Lexer.tokens "shared.f(g(), (shared).h())".toList = .ok ts ∧ ReadsShared (lexemes ts) ∧
        ReadsModel (lexemes ts) := by
  have hparse : parse "shared.f(g(), (shared).h())".toList = .ok (.call (.shared []) "f"
      [.call (.literal (.string "self")) "g" [],
        .call (.field ["shared"]) "h" []]) := by decide +kernel
  obtain ⟨ts, hts, hshared, hmodel⟩ := uses_of_parse hparse
  exact ⟨hparse, ts, hts, hshared.mp rfl, hmodel.mp rfl⟩

end ExprParser
end UiMarkup
