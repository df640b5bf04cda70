import UiMarkup.Proofs.Expr.Parse
import UiMarkup.Proofs.Expr.Spelling

/-!
A rendered expression is parsed back. The grammar derives the lexemes of its tokens at the level of
the expression, and an operand in parentheses at any level.
-/

namespace UiMarkup

open ExprParser (Derives Phrase pathLexemes)

/-! ### Lexemes of rendered tokens -/

/-- The tokens are read as the lexemes, one by one. -/
abbrev Reads (ps : List Piece) (ls : List Lexeme) : Prop := List.Forall₂ Piece.ReadAs ps ls

namespace Reads

variable {ps qs : List Piece} {ls : List Lexeme}

@[simp] theorem nil_iff : Reads [] ls ↔ ls = [] := List.forall₂_nil_left_iff

@[simp] theorem name_cons_iff {text : String} :
    Reads (.name text :: ps) ls ↔ ∃ ms, ls = .name text :: ms ∧ Reads ps ms := by
  simp [Reads, List.forall₂_cons_left_iff, Piece.ReadAs, and_comm]

@[simp] theorem keyword_cons_iff {word : Keyword} :
    Reads (.keyword word :: ps) ls ↔ ∃ ms, ls = .keyword word :: ms ∧ Reads ps ms := by
  simp [Reads, List.forall₂_cons_left_iff, Piece.ReadAs, and_comm]

@[simp] theorem symbol_cons_iff {sign : Symbol} :
    Reads (.symbol sign :: ps) ls ↔ ∃ ms, ls = .symbol sign :: ms ∧ Reads ps ms := by
  simp [Reads, List.forall₂_cons_left_iff, Piece.ReadAs, and_comm]

theorem append_iff : Reads (ps ++ qs) ls ↔ ∃ ms ns, ls = ms ++ ns ∧ Reads ps ms ∧ Reads qs ns := by
  constructor
  · intro h
    induction ps generalizing ls with
    | nil => exact ⟨[], ls, rfl, .nil, h⟩
    | cons p ps ih =>
        cases h with
        | cons hp hps =>
            obtain ⟨ms, ns, rfl, hms, hns⟩ := ih hps
            exact ⟨_ :: ms, ns, rfl, .cons hp hms, hns⟩
  · rintro ⟨ms, ns, rfl, hms, hns⟩
    exact List.rel_append hms hns

theorem bracketed_iff : Reads (Expr.bracketed ps) ls ↔
    ∃ ms, ls = Lexeme.symbol .leftParen :: (ms ++ [Lexeme.symbol .rightParen]) ∧ Reads ps ms := by
  simp only [Expr.bracketed, symbol_cons_iff, append_iff, nil_iff]
  constructor
  · rintro ⟨_, rfl, ms, _, rfl, hms, _, rfl, rfl⟩
    exact ⟨ms, rfl, hms⟩
  · rintro ⟨ms, rfl, hms⟩
    exact ⟨_, rfl, ms, _, rfl, hms, _, rfl, rfl⟩

theorem eq_pathLexemes {path : List String} (h : Reads (Expr.pathPieces path) ls) :
    ls = pathLexemes path := by
  induction path generalizing ls with
  | nil => exact nil_iff.mp h
  | cons s path ih =>
      cases path with
      | nil =>
          obtain ⟨ms, rfl, hms⟩ := name_cons_iff.mp h
          rw [nil_iff.mp hms]
          rfl
      | cons t path =>
          rw [Expr.pathPieces_cons_cons] at h
          obtain ⟨ms, rfl, hms⟩ := name_cons_iff.mp h
          obtain ⟨ns, rfl, hns⟩ := symbol_cons_iff.mp hms
          rw [ih hns, ExprParser.pathLexemes_cons_cons]

end Reads

/-! ### Levels -/

namespace ExprParser

theorem Derives.level_of_le {ls : List Lexeme} {e : Expr} {j k : Nat} (hkj : k ≤ j) (hj : j ≤ 6)
    (h : Derives ls (.level j e)) : Derives ls (.level k e) := by
  obtain ⟨d, rfl⟩ := Nat.exists_eq_add_of_le hkj
  clear hkj
  induction d generalizing k with
  | zero => exact h
  | succ d ih =>
      refine .tighter (by omega) (ih (k := k + 1) (by omega) ?_)
      rwa [Nat.add_right_comm, Nat.add_assoc]

theorem pathLexemes_concat {path : List String} (h : path ≠ []) (method : String) :
    pathLexemes (path ++ [method]) =
      pathLexemes path ++ [Lexeme.symbol .dot, Lexeme.name method] := by
  induction path with
  | nil => exact absurd rfl h
  | cons s path ih =>
      cases path with
      | nil => rfl
      | cons t path => simpa using ih (by simp)

end ExprParser

namespace Expr

/-- The phrase that the tokens of an expression are. -/
def phrase : Expr → Phrase
  | .conditional c t e => .expression (.conditional c t e)
  | .binary op left right => .level op.precedence (.binary op left right)
  | .unary op operand => .level 6 (.unary op operand)
  | .literal value => .chain (.literal value)
  | .field path => .chain (.field path)
  | .shared path => .chain (.shared path)
  | .call receiver method args => .chain (.call receiver method args)

/-- The lexemes that the tokens of an expression are read as derive it. -/
def Derived (e : Expr) : Prop := ∀ ls, Reads e.pieces ls → Derives ls e.phrase

theorem precedence_bounds (op : BinaryOp) : 1 ≤ op.precedence ∧ op.precedence ≤ 5 := by
  cases op <;> decide

variable {e : Expr} {ls : List Lexeme}

theorem level_of_phrase (h : Derives ls e.phrase) {k : Nat} (hpos : 1 ≤ k) (hlevel : k ≤ e.level)
    (hk : k ≤ 6) : Derives ls (.level k e) := by
  cases e with
  | conditional _ _ _ => exact absurd (Nat.le_trans hpos hlevel) (by simp [level])
  | binary op _ _ => exact h.level_of_le hlevel (Nat.le_succ_of_le (precedence_bounds op).2)
  | unary _ _ => exact h.level_of_le hlevel (Nat.le_refl 6)
  | literal _ | field _ | shared _ | call _ _ _ =>
      exact Derives.level_of_le hk (Nat.le_refl 6) (.operand h)

theorem expression_of_phrase (h : Derives ls e.phrase) : Derives ls (.expression e) := by
  cases e with
  | conditional _ _ _ => exact h
  | binary op _ _ =>
      exact .operators (level_of_phrase h (Nat.le_refl 1) (precedence_bounds op).1 (by decide))
  | unary _ _ | literal _ | field _ | shared _ | call _ _ _ =>
    exact .operators (level_of_phrase h (Nat.le_refl 1) (by simp [level]) (by decide))

theorem chain_of_bracketed (ih : e.Derived) (h : Reads (bracketed e.pieces) ls) :
    Derives ls (.chain e) := by
  obtain ⟨ms, rfl, hms⟩ := Reads.bracketed_iff.mp h
  exact .head (.parentheses (expression_of_phrase (ih ms hms)))

/-- An operand that is in parentheses where its level is too low is derived
at the level asked for. -/
theorem level_of_operand (ih : e.Derived) {k : Nat} (hpos : 1 ≤ k) (hk : k ≤ 6)
    (h : Reads (bracketedIf (e.level < k) e.pieces) ls) : Derives ls (.level k e) := by
  by_cases hlevel : e.level < k
  · rw [bracketedIf, if_pos (by simpa using hlevel)] at h
    exact Derives.level_of_le hk (Nat.le_refl 6) (.operand (chain_of_bracketed ih h))
  · rw [bracketedIf, if_neg (by simpa using hlevel)] at h
    exact level_of_phrase (ih ls h) hpos (Nat.not_lt.mp hlevel) hk

/-! ### Calls -/

theorem items_of_argumentPieces {e : Expr} {es : List Expr}
    (ih : ∀ a ∈ e :: es, a.Derived) (h : Reads (argumentPieces (e :: es)) ls) :
    Derives ls (.items (e :: es)) := by
  induction es generalizing e ls with
  | nil => exact .last (expression_of_phrase (ih e (by simp) ls h))
  | cons e' es ihes =>
      rw [argumentPieces, Reads.append_iff] at h
      obtain ⟨ms, _, rfl, hms, h⟩ := h
      obtain ⟨ns, rfl, hns⟩ := Reads.symbol_cons_iff.mp h
      rw [List.forall_mem_cons] at ih
      exact .more (expression_of_phrase (ih.1 ms hms)) (ihes ih.2 hns)

theorem arguments_of_argumentPieces {args : List Expr}
    (ih : ∀ a ∈ args, a.Derived) (h : Reads (argumentPieces args) ls) :
    Derives ls (.arguments args) := by
  cases args with
  | nil =>
      rw [argumentPieces, Reads.nil_iff] at h
      exact h ▸ .noArguments
  | cons _ _ => exact .arguments (items_of_argumentPieces ih h)

/-- A method, and its arguments in parentheses. -/
abbrev methodLexemes (method : String) (args : List Lexeme) : List Lexeme :=
  .name method :: .symbol .leftParen :: (args ++ [.symbol .rightParen])

/-- The lexemes of a call: those before the method, and those of the arguments. -/
theorem reads_call_iff {receiver : Expr} {method : String} {args : List Expr} :
    Reads (Expr.call receiver method args).pieces ls ↔
      ∃ before ms, ls = before ++ methodLexemes method ms ∧
        Reads (receiverPieces receiver receiver.pieces) before ∧
        Reads (argumentPieces args) ms := by
  simp only [pieces, Reads.append_iff, Reads.name_cons_iff, Reads.symbol_cons_iff, Reads.nil_iff]
  constructor
  · rintro ⟨before, _, rfl, hbefore, _, rfl, _, rfl, ms, _, rfl, hms, _, rfl, rfl⟩
    exact ⟨before, ms, rfl, hbefore, hms⟩
  · rintro ⟨before, ms, rfl, hbefore, hms⟩
    exact ⟨before, _, rfl, hbefore, _, rfl, _, rfl, ms, _, rfl, hms, _, rfl, rfl⟩

/-- A call whose receiver is a path, or is not named. -/
theorem chain_of_pathCall {path : List String} {method : String} {args : List Expr}
    {before ms : List Lexeme}
    (hbefore : before ++ [Lexeme.name method] = pathLexemes (path ++ [method]))
    (hargs : Derives ms (.arguments args)) :
    Derives (before ++ methodLexemes method ms)
      (.chain (.call (ExprParser.receiver path) method args)) := by
  have h :
      Derives (pathLexemes (path ++ [method]) ++ Lexeme.symbol .leftParen ::
        (ms ++ [Lexeme.symbol .rightParen]))
      (.primary (.call (ExprParser.receiver path) method args)) := .pathCall hargs
  rw [← hbefore, List.append_assoc] at h
  exact .head h

/-- A call whose receiver ends with a parenthesis. -/
theorem chain_of_methodCall {receiver : Expr} {method : String} {args : List Expr}
    {rs ms : List Lexeme} (hreceiver : Derives rs (.chain receiver))
    (hparen : .symbol .rightParen ∈ rs) (hargs : Derives ms (.arguments args)) :
    Derives (rs ++ [Lexeme.symbol .dot] ++ methodLexemes method ms)
      (.chain (.call receiver method args)) := by
  rw [List.append_assoc]
  exact .methodCall hreceiver (ExprParser.ne_pathLexemes_of_mem hparen) hargs

theorem reads_dot_iff {ps : List Piece} :
    Reads (ps ++ [Piece.symbol .dot]) ls ↔ ∃ ms, ls = ms ++ [Lexeme.symbol .dot] ∧ Reads ps ms := by
  simp only [Reads.append_iff, Reads.symbol_cons_iff, Reads.nil_iff]
  constructor
  · rintro ⟨ms, _, rfl, hms, _, rfl, rfl⟩
    exact ⟨ms, rfl, hms⟩
  · rintro ⟨ms, rfl, hms⟩
    exact ⟨ms, _, rfl, hms, _, rfl, rfl⟩

/-- The receiver is a path, which becomes one path with the method. -/
theorem chain_of_path_receiver {path : List String} {method : String} {args : List Expr}
    {ms : List Lexeme} (hpath : path ≠ []) (hargs : Derives ms (.arguments args))
    {before : List Lexeme} (h : Reads (pathPieces path ++ [Piece.symbol .dot]) before) :
    Derives (before ++ methodLexemes method ms)
      (.chain (.call (ExprParser.receiver path) method args)) := by
  obtain ⟨rs, rfl, hrs⟩ := reads_dot_iff.mp h
  refine chain_of_pathCall ?_ hargs
  rw [ExprParser.pathLexemes_concat hpath, Reads.eq_pathLexemes hrs, List.append_assoc]
  rfl

theorem eq_ofString_of_isSelf {receiver : Expr} (h : receiver.isSelf) :
    receiver = .ofString "self" := by
  unfold isSelf at h
  split at h
  · rw [of_decide_eq_true h]
    rfl
  · cases h

/-- The first segment of a path of the model, if it is no receiver in parentheses. -/
theorem head_ne_shared {s : String} {path : List String}
    (hroot : 2 ≤ (s :: path).length → (s :: path).head? ≠ some "shared")
    (hopen : s :: path ≠ ["shared"]) : s ≠ "shared" := by
  rintro rfl
  cases path with
  | nil => exact hopen rfl
  | cons _ _ => exact hroot (by simp) rfl

theorem chain_of_shared_call {path : List String} {method : String} {args : List Expr}
    (ihargs : ∀ a ∈ args, a.Derived)
    (h : Reads (Expr.call (.shared path) method args).pieces ls) :
    Derives ls (.chain (.call (.shared path) method args)) := by
  obtain ⟨before, ms, rfl, hbefore, hms⟩ := reads_call_iff.mp h
  exact chain_of_path_receiver (List.cons_ne_nil "shared" path)
    (arguments_of_argumentPieces ihargs hms) hbefore

theorem chain_of_call {receiver : Expr} {method : String} {args : List Expr}
    (hreceiver : receiver.WellFormed) (ih : receiver.Derived)
    (ihargs : ∀ a ∈ args, a.Derived)
    (h : Reads (Expr.call receiver method args).pieces ls) :
    Derives ls (.chain (.call receiver method args)) := by
  obtain ⟨before, ms, rfl, hbefore, hms⟩ := reads_call_iff.mp h
  have hargs := arguments_of_argumentPieces ihargs hms
  rw [receiverPieces] at hbefore
  cases hself : receiver.isSelf with
  | true =>
      obtain rfl := eq_ofString_of_isSelf hself
      rw [hself, if_pos rfl, Reads.nil_iff] at hbefore
      subst hbefore
      change Derives _ (.chain (.call (ExprParser.receiver []) method args))
      exact chain_of_pathCall rfl hargs
  | false =>
      rw [hself, if_neg Bool.false_ne_true] at hbefore
      cases hopen : receiver.isOpen with
      | false =>
          rw [hopen] at hbefore
          obtain ⟨rs, rfl, hrs⟩ := reads_dot_iff.mp hbefore
          have hparen : .symbol .rightParen ∈ rs := by
            obtain ⟨_, rfl, _⟩ := Reads.bracketed_iff.mp hrs
            simp
          exact chain_of_methodCall (chain_of_bracketed ih hrs) hparen hargs
      | true =>
          -- a path goes on with the method as one path; a call ends with a parenthesis
          cases hreceiver with
          | @field path hne _ hroot =>
              rw [hopen] at hbefore
              obtain ⟨s, path, rfl⟩ := List.exists_cons_of_ne_nil hne
              have hs := head_ne_shared hroot (of_decide_eq_true hopen)
              rw [← ExprParser.receiver_cons hs]
              exact chain_of_path_receiver hne hargs hbefore
          | shared _ _ => exact chain_of_shared_call ihargs h
          | call _ _ _ | sharedCall _ _ =>
              rw [hopen] at hbefore
              obtain ⟨rs, rfl, hrs⟩ := reads_dot_iff.mp hbefore
              have hparen : .symbol .rightParen ∈ rs := by
                obtain ⟨_, _, rfl, _, _⟩ := reads_call_iff.mp hrs
                simp
              exact chain_of_methodCall (ih rs hrs) hparen hargs
          | literal _ | binary _ _ | unary _ | conditional _ _ _ =>
              cases hopen

/-! ### Expressions -/

theorem accessed_of_root {path : List String} (hne : path ≠ [])
    (hroot : 2 ≤ path.length → path.head? ≠ some "shared") :
    ExprParser.accessed path = .field path := by
  match path with
  | [] => exact absurd rfl hne
  | [s] => simp [ExprParser.accessed]
  | s :: t :: path => exact ExprParser.accessed_cons (fun h => hroot (by simp) (congrArg some h)) _

theorem WellFormed.derived (h : e.WellFormed) : e.Derived := by
  induction h with
  | @literal value _ =>
      intro ls hls
      rw [Expr.pieces] at hls
      obtain ⟨x, ms, hx, hms, rfl⟩ := List.forall₂_cons_left_iff.mp hls
      obtain rfl := Reads.nil_iff.mp hms
      exact .head (ExprParser.derives_of_literal? hx)
  | @field path hne _ hroot =>
      intro ls hls
      have hpath := Derives.path hne
      rw [← Reads.eq_pathLexemes hls, accessed_of_root hne hroot] at hpath
      exact .head hpath
  | @shared path hne _ =>
      intro ls hls
      obtain ⟨s, path, rfl⟩ := List.exists_cons_of_ne_nil hne
      have hpath := Derives.path (List.cons_ne_nil "shared" (s :: path))
      rw [← Reads.eq_pathLexemes hls] at hpath
      exact .head hpath
  | call hreceiver _ _ ih ihargs => exact fun ls hls => chain_of_call hreceiver ih ihargs hls
  | sharedCall _ _ ihargs => exact fun ls hls => chain_of_shared_call ihargs hls
  | @binary op _ _ _ _ ihl ihr =>
      intro ls hls
      obtain ⟨hpos, hle⟩ := precedence_bounds op
      rw [Expr.pieces, Reads.append_iff] at hls
      obtain ⟨ms, _, rfl, hms, hrest⟩ := hls
      obtain ⟨ns, rfl, hns⟩ := Reads.symbol_cons_iff.mp hrest
      exact .binary op (level_of_operand ihl hpos (by omega) hms)
        (level_of_operand ihr (by omega) (by omega) hns)
  | unary _ ih =>
      intro ls hls
      rw [Expr.pieces] at hls
      obtain ⟨ms, rfl, hms⟩ := Reads.symbol_cons_iff.mp hls
      exact .unary _ (level_of_operand ih (by decide) (by decide) hms)
  | conditional _ _ _ ihc iht ihe =>
      intro ls hls
      rw [Expr.pieces] at hls
      obtain ⟨_, rfl, hif⟩ := Reads.keyword_cons_iff.mp hls
      obtain ⟨ms, _, rfl, hms, hrest⟩ := Reads.append_iff.mp hif
      obtain ⟨_, rfl, hthen⟩ := Reads.keyword_cons_iff.mp hrest
      obtain ⟨ns, _, rfl, hns, hrest⟩ := Reads.append_iff.mp hthen
      obtain ⟨os, rfl, hos⟩ := Reads.keyword_cons_iff.mp hrest
      exact .conditional (level_of_operand ihc (by decide) (by decide) hms)
        (expression_of_phrase (iht ns hns)) (expression_of_phrase (ihe os hos))

/-- A text that an expression is rendered by is parsed as this expression, and there is one. -/
theorem parse_renderedBy (h : e.WellFormed) :
    (∃ text, e.RenderedBy text) ∧ ∀ text, e.RenderedBy text → ExprParser.parse text = .ok e := by
  refine ⟨h.exists_renderedBy, ?_⟩
  rintro _ ⟨texts, htexts, rfl⟩
  obtain ⟨ts, hts, hls⟩ := Lexer.tokens_joinWith h.pieces htexts
  exact (ExprParser.parse_eq_ok_iff hts).mpr (expression_of_phrase (h.derived _ hls))

/-- A call on a difference with another one on its right. -/
def nestedDifference : Expr :=
  .call (.binary .sub (.field ["a"]) (.binary .sub (.field ["b"]) (.literal (.float 0.5)))) "f"
    [.literal (.string "q\"")]

def nestedDifferenceText : List Char := "( a - ( b - 0.5 ) ) . f ( \"q\\\"\" )".toList

theorem isIdentifier_of_letter {c : Char} (h : Text.isLetter c) :
    IsIdentifier (String.ofList [c]) := by
  refine ⟨⟨c, [], String.toList_ofList, by simp [Lexer.isWordStart, h], by simp⟩, ?_⟩
  unfold Keyword.ofWord?
  split <;> first | rfl | simp_all [← String.toList_inj]

theorem readFloat_half : Number.readFloat ['0', '.', '5'] = .ok 0.5 := by
  rfl

theorem wellFormed_nestedDifference : nestedDifference.WellFormed := by
  have field {s : String} (h : IsIdentifier s) : (Expr.field [s]).WellFormed :=
    .field (by simp) (by simpa using h) (by simp)
  have half : (Literal.float 0.5).WellFormed :=
    .float (List.cons_ne_nil '0' []) (List.cons_ne_nil '5' []) (List.all_eq_true.mp (by decide))
      (List.all_eq_true.mp (by decide)) readFloat_half
  have a : IsIdentifier "a" := isIdentifier_of_letter (c := 'a') (by decide)
  have b : IsIdentifier "b" := isIdentifier_of_letter (c := 'b') (by decide)
  have f : IsIdentifier "f" := isIdentifier_of_letter (c := 'f') (by decide)
  refine .call (.binary (field a) (.binary (field b) (.literal half))) f ?_
  simpa using .literal (.string _)

theorem renderedBy_nestedDifference : nestedDifference.RenderedBy nestedDifferenceText := by
  refine ⟨["(".toList, "a".toList, "-".toList, "(".toList, "b".toList, "-".toList, "0.5".toList,
    ")".toList, ")".toList, ".".toList, "f".toList, "(".toList, "\"q\\\"\"".toList, ")".toList],
    ?_, by decide⟩
  refine .cons (.symbol _) (.cons (.name _) (.cons (.symbol _) (.cons (.symbol _) (.cons (.name _)
    (.cons (.symbol _)
      (.cons ?_ (.cons (.symbol _) (.cons (.symbol _) (.cons (.symbol _) (.cons (.name _)
    (.cons (.symbol _) (.cons ?_ (.cons (.symbol _) .nil)))))))))))))
  · exact .float (List.cons_ne_nil '0' []) (List.cons_ne_nil '5' [])
      (List.all_eq_true.mp (by decide)) (List.all_eq_true.mp (by decide)) readFloat_half
  · exact .string "q\"" (.inl rfl)

theorem parse_renderedBy_nestedDifference : nestedDifference.WellFormed ∧
    nestedDifference.RenderedBy nestedDifferenceText ∧
    ExprParser.parse nestedDifferenceText = .ok nestedDifference :=
  ⟨wellFormed_nestedDifference, renderedBy_nestedDifference,
    (parse_renderedBy wellFormed_nestedDifference).2 _ renderedBy_nestedDifference⟩

end Expr
end UiMarkup
