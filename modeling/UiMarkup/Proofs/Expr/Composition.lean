import UiMarkup.Proofs.Expr.RoundTrip

/-!
Expressions put together from texts, however these are written. Where a text ends at a delimiter it
has the tokens that it has alone, and the grammar derives what it stands for wherever it stands; so
texts in parentheses, under an operator, in a conditional or as arguments stand for what is put
together from what each of them stands for (`parse_composed`).
-/

namespace UiMarkup

open ExprParser (lexemes parse Derives)
open Lexeme (AtDelimiter atDelimiter_cons)

namespace Lexer

/-! ### Texts next to each other -/

/-- A text has the same tokens when a delimiter follows, and behind them come
those of what follows. -/
theorem Scans.append {offset : Nat} {cs rest : List Char} {ts us : List Token}
    (h : Scans offset cs ts) (hrest : AtDelimiter rest)
    (hmore : Scans (offset + cs.length) rest us) : Scans offset (cs ++ rest) (ts ++ us) := by
  induction h with
  | done => exact hmore
  | blank hc _ ih => exact .blank hc (ih (by rwa [Nat.add_assoc, Nat.add_comm 1]))
  | token htext hends _ ih =>
      rw [List.append_assoc]
      exact .token htext (hends.append hrest) (ih (by rwa [Nat.add_assoc, ← List.length_append]))

/-- Wherever the text stands, its tokens have these lexemes. -/
def Yields (cs : List Char) (ls : List Lexeme) : Prop :=
  ∀ offset, ∃ ts, Scans offset cs ts ∧ lexemes ts = ls

theorem Scans.yields {offset : Nat} {cs : List Char} {ts : List Token} (h : Scans offset cs ts) :
    Yields cs (lexemes ts) := by
  induction h with
  | done => exact fun offset => ⟨[], .done offset, rfl⟩
  | blank hc _ ih =>
      intro offset
      obtain ⟨us, hus, hls⟩ := ih (offset + 1)
      exact ⟨us, .blank hc hus, hls⟩
  | @token _ x text rest _ htext hends _ ih =>
      intro offset
      obtain ⟨us, hus, hls⟩ := ih (offset + text.length)
      exact ⟨_, .token htext hends hus, congrArg (x :: ·) hls⟩

namespace Yields

variable {cs rest : List Char} {ls ms : List Lexeme}

theorem nil : Yields [] [] := fun offset => ⟨[], .done offset, rfl⟩

theorem blank (h : Yields cs ls) : Yields (' ' :: cs) ls := by
  intro offset
  obtain ⟨ts, hts, hls⟩ := h (offset + 1)
  exact ⟨ts, .blank (by decide) hts, hls⟩

theorem lexeme {x : Lexeme} {text : List Char} (htext : x.WrittenAs text)
    (hends : x.EndsBefore rest) (h : Yields rest ls) : Yields (text ++ rest) (x :: ls) := by
  intro offset
  obtain ⟨ts, hts, hls⟩ := h (offset + text.length)
  exact ⟨_, .token htext hends hts, congrArg (x :: ·) hls⟩

theorem append (h : Yields cs ls) (hrest : AtDelimiter rest) (hmore : Yields rest ms) :
    Yields (cs ++ rest) (ls ++ ms) := by
  intro offset
  obtain ⟨ts, hts, rfl⟩ := h offset
  obtain ⟨us, hus, rfl⟩ := hmore (offset + cs.length)
  exact ⟨ts ++ us, hts.append hrest hus, List.map_append⟩

theorem keyword (word : Keyword) (hrest : AtDelimiter rest) (h : Yields rest ls) :
    Yields (word.spelling.toList ++ rest) (.keyword word :: ls) :=
  lexeme (.keyword word) (hrest.endsBefore _) h

theorem symbol (sign : Symbol) (hrest : AtDelimiter rest) (h : Yields rest ls) :
    Yields (sign.spelling.toList ++ rest) (.symbol sign :: ls) :=
  lexeme (.symbol sign) (hrest.endsBefore _) h

theorem name {m : String} (hm : IsIdentifier m) (hrest : AtDelimiter rest) (h : Yields rest ls) :
    Yields (m.toList ++ rest) (.name m :: ls) := by
  obtain ⟨⟨c, cs, htext, hc, hcs⟩, hkeyword⟩ := hm
  obtain rfl : String.ofList (c :: cs) = m := htext ▸ String.ofList_toList
  rw [htext]
  exact lexeme (.name hc hcs hkeyword) (hrest.endsBefore _) h

/-- Nothing goes on with a parenthesis. -/
theorem leftParen (h : Yields rest ls) : Yields ('(' :: rest) (.symbol .leftParen :: ls) :=
  lexeme (.symbol .leftParen) (endsBefore_symbol_iff.mpr (by simp)) h

theorem rightParen (h : Yields rest ls) : Yields (')' :: rest) (.symbol .rightParen :: ls) :=
  lexeme (.symbol .rightParen) (endsBefore_symbol_iff.mpr (by simp)) h

/-- A text in parentheses, and what follows. -/
theorem parentheses (h : Yields cs ls) (hmore : Yields rest ms) :
    Yields ('(' :: (cs ++ ')' :: rest))
      (Lexeme.symbol .leftParen :: (ls ++ [.symbol .rightParen]) ++ ms) := by
  simpa using (h.append (atDelimiter_cons (by decide) rest) hmore.rightParen).leftParen

end Yields

end Lexer

namespace ExprParser

open Lexer (Yields)

/-- A text stands for an expression if its tokens have lexemes that the grammar derives it from. -/
theorem parse_eq_ok_iff_yields {source : List Char} {e : Expr} :
    parse source = .ok e ↔ ∃ ls, Yields source ls ∧ Derives ls (.expression e) := by
  constructor
  · intro h
    obtain ⟨ts, htokens, hderives⟩ := exists_tokens_of_parse h
    exact ⟨lexemes ts, (Lexer.tokens_eq_ok_iff.mp htokens).yields, hderives⟩
  · rintro ⟨ls, hyields, hderives⟩
    obtain ⟨ts, hscans, rfl⟩ := hyields 0
    exact (parse_eq_ok_iff (Lexer.tokens_eq_ok_iff.mpr hscans)).mpr hderives

/-- In parentheses an expression is an operand of any level. -/
theorem Derives.level_parentheses {ls : List Lexeme} {e : Expr} {k : Nat}
    (h : Derives ls (.expression e)) (hk : k ≤ 6) :
    Derives (.symbol .leftParen :: (ls ++ [.symbol .rightParen])) (.level k e) :=
  (operand (head (parentheses h))).level_of_le hk (Nat.le_refl 6)

theorem Derives.of_level {ls : List Lexeme} {e : Expr} {k : Nat} (h : Derives ls (.level k e))
    (hpos : 1 ≤ k) (hk : k ≤ 6) : Derives ls (.expression e) :=
  .operators (h.level_of_le hpos hk)

section

variable {s t u : List Char} {e f g : Expr} (hs : parse s = .ok e) (ht : parse t = .ok f)
    (hu : parse u = .ok g)

include hs

theorem parse_parentheses : parse ('(' :: (s ++ [')'])) = .ok e := by
  obtain ⟨ls, hs, hd⟩ := parse_eq_ok_iff_yields.mp hs
  refine parse_eq_ok_iff_yields.mpr ⟨_, hs.parentheses .nil, ?_⟩
  rw [List.append_nil]
  exact (hd.level_parentheses (k := 6) (by decide)).of_level (by decide) (by decide)

theorem parse_unary (op : UnaryOp) :
    parse (op.spelling.toList ++ '(' :: (s ++ [')'])) = .ok (.unary op e) := by
  obtain ⟨ls, hs, hd⟩ := parse_eq_ok_iff_yields.mp hs
  rw [← op.spelling_symbol]
  refine parse_eq_ok_iff_yields.mpr
    ⟨_, .symbol _ (atDelimiter_cons (by decide) _) (hs.parentheses .nil), ?_⟩
  rw [List.append_nil]
  exact (Derives.unary op (hd.level_parentheses (by decide))).of_level (by decide) (by decide)

include ht

theorem parse_binary (op : BinaryOp) :
    parse ('(' :: (s ++ ')' :: ' ' :: (op.spelling.toList ++ ' ' :: '(' :: (t ++ [')'])))) =
      .ok (.binary op e f) := by
  obtain ⟨ls, hs, hd⟩ := parse_eq_ok_iff_yields.mp hs
  obtain ⟨ms, ht, hd'⟩ := parse_eq_ok_iff_yields.mp ht
  rw [← op.spelling_symbol]
  refine parse_eq_ok_iff_yields.mpr
    ⟨_, hs.parentheses
      (.blank (.symbol _ (atDelimiter_cons (by decide) _) (ht.parentheses .nil).blank)), ?_⟩
  rw [List.append_nil]
  obtain ⟨hpos, hk⟩ := Expr.precedence_bounds op
  have hleft := hd.level_parentheses (k := op.precedence) (by omega)
  have hright := hd'.level_parentheses (k := op.precedence + 1) (by omega)
  exact (Derives.binary op hleft hright).of_level hpos (by omega)

theorem parse_call {m : String} (hm : IsIdentifier m) :
    parse (m.toList ++ '(' :: (s ++ ',' :: ' ' :: (t ++ [')']))) =
      .ok (.call (.literal (.string "self")) m [e, f]) := by
  obtain ⟨ls, hs, hd⟩ := parse_eq_ok_iff_yields.mp hs
  obtain ⟨ms, ht, hd'⟩ := parse_eq_ok_iff_yields.mp ht
  have hitems : Yields (s ++ ',' :: ' ' :: (t ++ [')']))
      (ls ++ .symbol .comma :: (ms ++ [.symbol .rightParen])) :=
    hs.append (atDelimiter_cons (by decide) _) (.symbol .comma (atDelimiter_cons (by decide) _)
      (ht.append (atDelimiter_cons (by decide) []) Yields.nil.rightParen).blank)
  refine parse_eq_ok_iff_yields.mpr
    ⟨_, .name hm (atDelimiter_cons (by decide) _) hitems.leftParen, ?_⟩
  have hcall : Derives _ (.primary (.call (receiver []) m [e, f])) :=
    .pathCall (.arguments (.more hd (.last hd')))
  simpa [receiver] using (Derives.operand (.head hcall)).of_level (by decide) (by decide)

include hu

theorem parse_conditional :
    parse ("if ".toList ++
      '(' :: (s ++ ')' :: (" then ".toList ++ (t ++ (" else ".toList ++ u))))) =
      .ok (.conditional e f g) := by
  obtain ⟨ls, hs, hd⟩ := parse_eq_ok_iff_yields.mp hs
  obtain ⟨ms, ht, hd'⟩ := parse_eq_ok_iff_yields.mp ht
  obtain ⟨ns, hu, hd''⟩ := parse_eq_ok_iff_yields.mp hu
  have helse : Yields (" else ".toList ++ u) (.keyword .elseWord :: ns) :=
    .blank (.keyword .elseWord (atDelimiter_cons (by decide) u) hu.blank)
  have hthen : Yields (" then ".toList ++ (t ++ (" else ".toList ++ u)))
      (.keyword .thenWord :: (ms ++ .keyword .elseWord :: ns)) :=
    .blank (.keyword .thenWord (atDelimiter_cons (by decide) _)
      (ht.append (atDelimiter_cons (by decide) _) helse).blank)
  refine parse_eq_ok_iff_yields.mpr
    ⟨_, .keyword .ifWord (atDelimiter_cons (by decide) _) (hs.parentheses hthen).blank, ?_⟩
  exact .conditional (hd.level_parentheses (by decide)) hd' hd''

/-- Texts in parentheses, joined by operators, in a conditional and as arguments are parsed as the
expressions put together from what each of the texts alone is parsed as. -/
theorem parse_composed :
    parse ("(".toList ++ s ++ ")".toList) = .ok e ∧
      (∀ op : BinaryOp,
        parse ("(".toList ++ s ++ ") ".toList ++ op.spelling.toList ++
          " (".toList ++ t ++ ")".toList) =
        .ok (.binary op e f)) ∧
      (∀ op : UnaryOp, parse (op.spelling.toList ++ "(".toList ++ s ++ ")".toList) =
        .ok (.unary op e)) ∧
      parse ("if (".toList ++ s ++ ") then ".toList ++ t ++ " else ".toList ++ u) =
        .ok (.conditional e f g) ∧
      ∀ m, IsIdentifier m → parse (m.toList ++ "(".toList ++ s ++ ", ".toList ++ t ++ ")".toList) =
        .ok (.call (.literal (.string "self")) m [e, f]) := by
  refine ⟨parse_parentheses hs, fun op => ?_, fun op => ?_, ?_, fun m hm => ?_⟩
  · have := parse_binary hs ht op
    simpa using this
  · have := parse_unary hs op
    simpa using this
  · have := parse_conditional hs ht hu
    simpa using this
  · have := parse_call hs ht hm
    simpa using this

end

set_option maxRecDepth 4000 in
/-- A sum and a disjunction, in places where without parentheses or commas they
would not be operands. -/
theorem parse_composed_loose :
    parse "a||b".toList = .ok (.binary .or (.field ["a"]) (.field ["b"])) ∧
      parse "c+d".toList = .ok (.binary .add (.field ["c"]) (.field ["d"])) ∧
      parse "e".toList = .ok (.field ["e"]) ∧ IsIdentifier "m" ∧
      parse "(a||b) * (c+d)".toList = .ok (.binary .mul (.binary .or (.field ["a"]) (.field ["b"]))
        (.binary .add (.field ["c"]) (.field ["d"]))) ∧
      parse "if (a||b) then c+d else e".toList =
        .ok (.conditional (.binary .or (.field ["a"]) (.field ["b"]))
        (.binary .add (.field ["c"]) (.field ["d"])) (.field ["e"])) ∧
      parse "m(a||b, c+d)".toList = .ok (.call (.literal (.string "self")) "m"
        [.binary .or (.field ["a"]) (.field ["b"]),
          .binary .add (.field ["c"]) (.field ["d"])]) := by
  have hs : parse "a||b".toList = .ok (.binary .or (.field ["a"]) (.field ["b"])) := by
    decide +kernel
  have ht : parse "c+d".toList = .ok (.binary .add (.field ["c"]) (.field ["d"])) := by
    decide +kernel
  have hu : parse "e".toList = .ok (.field ["e"]) := by decide +kernel
  have hm : IsIdentifier "m" := Expr.isIdentifier_of_letter (c := 'm') (by decide)
  have h := parse_composed hs ht hu
  exact ⟨hs, ht, hu, hm, h.2.1 .mul, h.2.2.2.1, h.2.2.2.2 "m" hm⟩

end ExprParser
end UiMarkup
