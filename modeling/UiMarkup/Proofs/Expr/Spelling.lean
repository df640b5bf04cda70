import UiMarkup.Proofs.Expr.Rendering
import UiMarkup.Proofs.Expr.Tokens

/-!
The lexer reads rendered tokens back. What a token is spelled by is a text of one lexeme, and this
one ends there, since a blank follows or nothing.
-/

namespace UiMarkup

open Text

/-- A rendered token is read as a lexeme. -/
def Piece.ReadAs : Piece → Lexeme → Prop
  | .literal value, x => ExprParser.literal? x = some (.ok value)
  | .name text, x => x = .name text
  | .keyword word, x => x = .keyword word
  | .symbol sign, x => x = .symbol sign

namespace Lexer

open Piece (escape SpelledBy ReadAs)
open Lexeme (AtDelimiter)

/-- What stands for the value of a string literal may stand between its quotes. -/
theorem interior_escape (quote : Char) (value : List Char) :
    Interior quote (value.flatMap (escape quote)) := by
  induction value with
  | nil => exact .nil
  | cons c value ih =>
      rw [List.flatMap_cons, escape]
      split_ifs with hn ht hr hc
      · exact .escaped 'n' ih
      · exact .escaped 't' ih
      · exact .escaped 'r' ih
      · exact .escaped c ih
      · obtain ⟨hslash, hquote⟩ := not_or.mp hc
        exact .plain hquote hslash ih

theorem unescapeAll_escape {quote : Char} (hquote : IsQuote quote) (value : List Char) :
    unescapeAll (value.flatMap (escape quote)) = value := by
  have hself : unescape quote = quote := by rcases hquote with rfl | rfl <;> rfl
  induction value with
  | nil => rfl
  | cons c value ih =>
      rw [List.flatMap_cons, escape]
      split_ifs with hn ht hr hc
      · simp [unescapeAll, ih, unescape, hn]
      · simp [unescapeAll, ih, unescape, ht]
      · simp [unescapeAll, ih, unescape, hr]
      · have hc' : unescape c = c := by
          rcases hc with rfl | rfl
          · rfl
          · exact hself
        simp [unescapeAll, ih, hc']
      · rw [List.singleton_append, unescapeAll_plain (not_or.mp hc).1, ih]

/-- What a rendered token is spelled by is a text of the lexeme that it is read as. -/
theorem exists_writtenAs_of_spelledBy {p : Piece} {text : List Char} (hp : p.WellFormed)
    (h : p.SpelledBy text) : ∃ x : Lexeme, x.WrittenAs text ∧ p.ReadAs x := by
  cases h with
  | string value hquote =>
      have hwritten := Lexeme.WrittenAs.string hquote.symm (interior_escape _ value.toList)
      rw [unescapeAll_escape hquote.symm, String.ofList_toList] at hwritten
      exact ⟨_, hwritten, rfl⟩
  | integer n =>
      have hdigit : ∀ c ∈ Nat.toDigits 10 n, isDigit c := fun c hc =>
        isDigit_of_isDecimal (Number.isDecimal_of_mem_toDigits hc)
      have hvalue : Number.readWhole (Nat.toDigits 10 n) = .ok n := by
        cases hp with
        | integer hlength => exact Number.readWhole_toDigits (by simpa using hlength)
      cases hdigits : Nat.toDigits 10 n with
      | nil => exact absurd hdigits Nat.toDigits_ne_nil
      | cons c cs =>
          rw [hdigits, List.forall_mem_cons] at hdigit
          refine ⟨_, .integer hdigit.1 hdigit.2, ?_⟩
          rw [ReadAs, ExprParser.literal?, String.toList_ofList, ← hdigits, hvalue]
          rfl
  | float hw hpart hwhole hparts hvalue =>
      rename_i whole part x
      obtain ⟨c, cs, rfl⟩ := List.exists_cons_of_ne_nil hw
      obtain ⟨d, ds, rfl⟩ := List.exists_cons_of_ne_nil hpart
      rw [List.forall_mem_cons] at hwhole hparts
      refine ⟨_, .float hwhole.1 hwhole.2 hparts.1 hparts.2, ?_⟩
      rw [ReadAs, ExprParser.literal?, String.toList_ofList, hvalue]
      rfl
  | trueValue => exact ⟨_, .keyword .trueValue, rfl⟩
  | falseValue => exact ⟨_, .keyword .falseValue, rfl⟩
  | name text =>
      obtain ⟨⟨c, cs, htext, hc, hcs⟩, hkeyword⟩ := hp
      have hofList : String.ofList (c :: cs) = text := htext ▸ String.ofList_toList
      have hwritten := Lexeme.WrittenAs.name hc hcs (hofList ▸ hkeyword)
      rw [hofList] at hwritten
      exact ⟨.name text, htext ▸ hwritten, rfl⟩
  | keyword word => exact ⟨_, .keyword word, rfl⟩
  | symbol sign => exact ⟨_, .symbol sign, rfl⟩

theorem scans_joinWith {ps : List Piece} {texts : List (List Char)} (hps : ∀ p ∈ ps, p.WellFormed)
    (h : List.Forall₂ SpelledBy ps texts) (offset : Nat) :
    ∃ ts, Scans offset (joinWith [' '] texts) ts ∧
      List.Forall₂ ReadAs ps (ExprParser.lexemes ts) := by
  induction h generalizing offset with
  | nil => exact ⟨[], .done offset, .nil⟩
  | @cons p text ps texts hp htexts ih =>
      rw [List.forall_mem_cons] at hps
      -- what follows the first token is nothing, or a blank and the other tokens
      obtain ⟨rest, hjoin, hrest, hmore⟩ : ∃ rest, joinWith [' '] (text :: texts) = text ++ rest ∧
          AtDelimiter rest ∧
          ∀ offset, ∃ ts, Scans offset rest ts ∧
            List.Forall₂ ReadAs ps (ExprParser.lexemes ts) := by
        cases texts with
        | nil =>
            cases htexts
            exact ⟨[], by simp [joinWith], Lexeme.atDelimiter_nil,
              fun offset => ⟨[], .done offset, .nil⟩⟩
        | cons text' texts =>
            refine ⟨' ' :: joinWith [' '] (text' :: texts), by simp [joinWith],
              Lexeme.atDelimiter_cons (by decide) _, fun offset => ?_⟩
            obtain ⟨ts, hts, hlexemes⟩ := ih hps.2 (offset + 1)
            exact ⟨ts, .blank (by decide) hts, hlexemes⟩
      obtain ⟨x, htext, hx⟩ := exists_writtenAs_of_spelledBy hps.1 hp
      obtain ⟨ts, hts, hlexemes⟩ := hmore (offset + text.length)
      refine ⟨⟨x, offset, text.length⟩ :: ts, ?_, .cons hx hlexemes⟩
      rw [hjoin]
      exact .token htext (hrest.endsBefore x) hts

/-- The tokens of a rendered text are read back, one after another. -/
theorem tokens_joinWith {ps : List Piece} {texts : List (List Char)} (hps : ∀ p ∈ ps, p.WellFormed)
    (h : List.Forall₂ SpelledBy ps texts) :
    ∃ ts, tokens (joinWith [' '] texts) = .ok ts ∧
      List.Forall₂ ReadAs ps (ExprParser.lexemes ts) := by
  obtain ⟨ts, hts, hlexemes⟩ := scans_joinWith hps h 0
  exact ⟨ts, tokens_eq_ok_iff.mpr hts, hlexemes⟩

end Lexer
end UiMarkup
