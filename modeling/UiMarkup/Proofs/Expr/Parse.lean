import Mathlib
import UiMarkup.Proofs.Expr.Completeness
import UiMarkup.Proofs.Expr.Tokens

/-!
The texts that parse are those whose tokens the grammar derives, and the tree is the one derived.
-/

namespace UiMarkup.ExprParser

theorem Derives.gives {ls : List Lexeme} {e : Expr} (h : Derives ls (.expression e)) (stop : Nat)
    {ts : List Token} (hts : lexemes ts = ls) : Gives (expression stop ts) e [] := by
  have := reads_of_derives stop h ts [] hts (Stops.nil 1)
  rwa [List.append_nil] at this

/-- The grammar is unambiguous, since the parser reads one tree only. -/
theorem Derives.unique {ls : List Lexeme} {e e' : Expr} (h : Derives ls (.expression e))
    (h' : Derives ls (.expression e')) : e = e' := by
  -- the parser looks at the lexemes only, so any tokens with these lexemes will do
  have hts : lexemes (ls.map fun x => ⟨x, 0, 0⟩) = ls := by
    rw [lexemes, List.map_map]
    exact List.map_id ls
  exact ((h.gives 0 hts).unique (h'.gives 0 hts)).1

section

variable {source : List Char} {ts : List Token}

/-- Beside a complaint, only a number without a value keeps a text from a tree. -/
theorem parse_sound (hts : Lexer.tokens source = .ok ts) :
    match parse source with
    | .ok e => Derives (lexemes ts) (.expression e)
    | .error (.malformed _) => True
    | .error (.number _) => ∃ x ∈ lexemes ts, ¬ x.Convertible := by
  cases ts with
  | nil =>
      rw [parse, Lexer.scan_of_tokens hts]
      trivial
  | cons t ts =>
      have hs := (sound source.length (t :: ts)).expression
      rw [parse, Lexer.scan_of_tokens hts]
      dsimp only
      match expression source.length (t :: ts), hs with
      | .error (.malformed _), _ => trivial
      | .error (.number _), hs => exact hs
      | .ok ⟨e, [], _⟩, ⟨taken, hls, hd⟩ =>
        -- no tokens are left, so what was taken is all there was
        rw [hls, lexemes_nil, List.append_nil]
        exact hd
      | .ok ⟨_, _ :: _, _⟩, _ => trivial

theorem parse_eq_ok_iff (hts : Lexer.tokens source = .ok ts) {e : Expr} :
    parse source = .ok e ↔ Derives (lexemes ts) (.expression e) := by
  constructor
  · intro h
    have hs := parse_sound hts
    rwa [h] at hs
  · intro h
    obtain ⟨x, more, hls, -⟩ := h.opens (by simp)
    obtain ⟨o, n, us, rfl, -⟩ := lexemes_eq_cons hls
    obtain ⟨_, hread⟩ := h.gives source.length rfl
    rw [parse, Lexer.scan_of_tokens hts]
    dsimp only
    rw [hread]
    rfl

/-- A text that has a tree has tokens, and the tree is derived from them. -/
theorem exists_tokens_of_parse {e : Expr} (h : parse source = .ok e) :
    ∃ ts, Lexer.tokens source = .ok ts ∧ Derives (lexemes ts) (.expression e) := by
  cases hts : Lexer.tokens source with
  | error err =>
      rw [parse, Lexer.scan_of_tokens_eq_error hts] at h
      cases h
  | ok ts => exact ⟨ts, rfl, (parse_eq_ok_iff hts).mp h⟩

theorem parse_eq_malformed (hts : Lexer.tokens source = .ok ts)
    (hn : ∀ t ∈ ts, t.lexeme.Convertible) {fault : ExprFault} (h : parse source = .error fault) :
    ∃ err, fault = .malformed err := by
  have hs := parse_sound hts
  rw [h] at hs
  cases fault with
  | malformed err => exact ⟨err, rfl⟩
  | number fault =>
      obtain ⟨x, hx, hbad⟩ := hs
      obtain ⟨t, ht, rfl⟩ := List.mem_map.mp hx
      exact absurd (hn t ht) hbad

end

theorem parse_decides_derives {source : List Char} {ts : List Token}
    (hts : Lexer.tokens source = .ok ts) (hn : ∀ t ∈ ts, t.lexeme.Convertible) :
    (∀ e, parse source = .ok e ↔ Derives (lexemes ts) (.expression e)) ∧
      ((∀ e, ¬ Derives (lexemes ts) (.expression e)) → ∃ err,
        parse source = .error (.malformed err)) ∧
      ∀ ls e e', Derives ls (.expression e) → Derives ls (.expression e') → e = e' := by
  refine ⟨fun e => parse_eq_ok_iff hts, fun hnone => ?_, fun _ _ _ => Derives.unique⟩
  cases h : parse source with
  | ok e => exact absurd ((parse_eq_ok_iff hts).mp h) (hnone e)
  | error fault =>
      obtain ⟨err, rfl⟩ := parse_eq_malformed hts hn h
      exact ⟨err, rfl⟩

/-- The tokens of a difference of a call, a path and a number. -/
def difference : List Token :=
  [⟨.name "a", 0, 1⟩, ⟨.symbol .dot, 1, 1⟩, ⟨.name "f", 2, 1⟩, ⟨.symbol .leftParen, 3, 1⟩,
    ⟨.symbol .rightParen, 4, 1⟩, ⟨.symbol .minus, 5, 1⟩, ⟨.name "b", 6, 1⟩, ⟨.symbol .minus, 7, 1⟩,
    ⟨.integer "2", 8, 1⟩]

theorem tokens_difference : Lexer.tokens "a.f()-b-2".toList = .ok difference := by
  decide +kernel

theorem convertible_difference : ∀ t ∈ difference, t.lexeme.Convertible := by
  simp only [difference, List.forall_mem_cons, List.not_mem_nil, false_implies,
    implies_true, and_true]
  exact ⟨trivial, trivial, trivial, trivial, trivial, trivial, trivial, trivial, 2, by cbv⟩

theorem parse_decides_derives_difference :
    Lexer.tokens "a.f()-b-2".toList = .ok difference ∧ (∀ t ∈ difference, t.lexeme.Convertible) ∧
      Derives (lexemes difference) (.expression
        (.binary .sub (.binary .sub (.call (.field ["a"]) "f" []) (.field ["b"]))
          (.literal (.integer 2)))) := by
  refine ⟨tokens_difference, convertible_difference, ?_⟩
  refine ((parse_decides_derives tokens_difference convertible_difference).1 _).mp ?_
  decide +kernel

end UiMarkup.ExprParser
