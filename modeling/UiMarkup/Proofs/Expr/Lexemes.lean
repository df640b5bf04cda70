import UiMarkup.Expr.Lexer
import UiMarkup.Proofs.Number.Whole

/-!
The texts of lexemes, without a look at the lexer. A lexeme is read where its text stands and
nothing follows that goes on with it (`readLexeme_eq_ok_iff`); where none is read, no lexeme has a
text that the characters begin with.
-/

namespace UiMarkup

open Text

namespace Lexer

/-! ### First characters -/

/-- The quotes that string literals stand in. -/
abbrev IsQuote (c : Char) : Prop := c = '\'' ∨ c = '"'

/-- The characters that symbols begin with. -/
def symbolStarts : List Char :=
  ['=', '!', '<', '>', '&', '|', '+', '-', '*', '/', '.', ',', '(', ')']

/-- No string, number or word begins with the character, nor is it a blank. -/
structure StartsSymbol (c : Char) : Prop where
  blank : isBlank c = false
  quote : ¬ IsQuote c
  digit : isDigit c = false
  word : isWordStart c = false

theorem startsSymbol_of_mem {c : Char} (h : c ∈ symbolStarts) : StartsSymbol c := by
  have hall : symbolStarts.all fun d =>
      !isBlank d && (d != '\'' && d != '"') && !isDigit d && !isWordStart d := by
    decide +kernel
  have := List.all_eq_true.mp hall c h
  simp only [Bool.and_eq_true, Bool.not_eq_true', bne_iff_ne] at this
  exact ⟨this.1.1.1, not_or.mpr this.1.1.2, this.1.2, this.2⟩

theorem startsNumber_of_isDigit {c : Char} (h : isDigit c) : isBlank c = false ∧ ¬ IsQuote c := by
  refine ⟨isBlank_of_isDigit h, ?_⟩
  rintro (rfl | rfl) <;> exact absurd h (by decide)

theorem startsWord_of_isWordStart {c : Char} (h : isWordStart c) :
    isBlank c = false ∧ ¬ IsQuote c ∧ isDigit c = false := by
  have hquote : ∀ d, d = '\'' ∨ d = '"' → isWordStart d = false := by
    rintro d (rfl | rfl) <;> decide +kernel
  refine ⟨?_, fun hc => Bool.false_ne_true ((hquote c hc).symm.trans h), ?_⟩
  · rcases Bool.or_eq_true_iff.mp h with hl | hu
    · exact isBlank_of_isLetter hl
    · exact eq_of_beq hu ▸ by decide
  · rcases Bool.or_eq_true_iff.mp h with hl | hu
    · exact isDigit_of_isLetter hl
    · exact eq_of_beq hu ▸ by decide

theorem keyword_isWord (word : Keyword) : ∃ c cs, word.spelling.toList = c :: cs ∧ isWordStart c ∧
    ∀ d ∈ cs, isWordPart d := by
  cases word <;> exact ⟨_, _, rfl, by decide, List.all_eq_true.mp (by decide)⟩

/-! ### String literals -/

/-- What may stand between two quotes: another such quote, or a backslash,
only behind a backslash. -/
inductive Interior (quote : Char) : List Char → Prop
  | nil : Interior quote []
  | plain {c : Char} {cs : List Char} : c ≠ quote → c ≠ '\\' → Interior quote cs →
      Interior quote (c :: cs)
  | escaped (c : Char) {cs : List Char} : Interior quote cs → Interior quote ('\\' :: c :: cs)

/-- A backslash goes, and the character behind it becomes what both stand for. -/
def unescapeAll : List Char → List Char
  | '\\' :: c :: cs => unescape c :: unescapeAll cs
  | c :: cs => c :: unescapeAll cs
  | [] => []

theorem unescapeAll_plain {c : Char} (h : c ≠ '\\') (cs : List Char) :
    unescapeAll (c :: cs) = c :: unescapeAll cs := by
  rw [unescapeAll]
  exact fun _ _ heq => absurd heq h

theorem readString_interior {quote : Char} (hquote : quote ≠ '\\') {body : List Char}
    (h : Interior quote body) (rest : List Char) :
    readString quote (body ++ quote :: rest) = some (unescapeAll body, body.length + 1) := by
  induction h with
  | nil =>
      rw [List.nil_append, readString.eq_def]
      simp [unescapeAll]
  | plain hc hslash _ ih =>
      rw [List.cons_append, readString.eq_def]
      simp [hc, hslash, ih, unescapeAll_plain hslash]
  | escaped c _ ih =>
      rw [List.cons_append, List.cons_append, readString, if_neg (Ne.symm hquote), if_pos rfl, ih]
      simp [unescapeAll]

theorem exists_interior_of_readString {quote : Char} {cs value : List Char} {n : Nat}
    (h : readString quote cs = some (value, n)) :
      ∃ body rest, cs = body ++ quote :: rest ∧ Interior quote body ∧
      value = unescapeAll body ∧ n = body.length + 1 := by
  fun_induction readString quote cs generalizing value n with
  | case1 => cases h
  | case2 cs =>
      obtain ⟨rfl, rfl⟩ := Prod.mk.inj (Option.some.inj h)
      exact ⟨[], cs, rfl, .nil, rfl, rfl⟩
  | case3 => cases h
  | case4 d ds hquote ih =>
      obtain ⟨⟨value, n⟩, hread, heq⟩ := Option.map_eq_some_iff.mp h
      obtain ⟨rfl, rfl⟩ := Prod.mk.inj heq
      obtain ⟨body, rest, rfl, hbody, rfl, rfl⟩ := ih hread
      exact ⟨'\\' :: d :: body, rest, rfl, .escaped d hbody, by rw [unescapeAll], rfl⟩
  | case5 c cs hc hslash ih =>
      obtain ⟨⟨value, n⟩, hread, heq⟩ := Option.map_eq_some_iff.mp h
      obtain ⟨rfl, rfl⟩ := Prod.mk.inj heq
      obtain ⟨body, rest, rfl, hbody, rfl, rfl⟩ := ih hread
      exact ⟨c :: body, rest, rfl, .plain hc hslash hbody,
        (unescapeAll_plain hslash body).symm, rfl⟩

end Lexer

open Lexer (isWordStart isWordPart IsQuote Interior unescapeAll)

namespace Lexeme

/-! ### Texts -/

/-- The texts of a lexeme. All but those of strings are determined by it. -/
inductive WrittenAs : Lexeme → List Char → Prop
  | string {quote : Char} {body : List Char} : IsQuote quote → Interior quote body →
      WrittenAs (.string (String.ofList (unescapeAll body))) (quote :: (body ++ [quote]))
  | integer {c : Char} {cs : List Char} : isDigit c → (∀ d ∈ cs, isDigit d) →
      WrittenAs (.integer (String.ofList (c :: cs))) (c :: cs)
  | float {c d : Char} {cs ds : List Char} : isDigit c → (∀ d ∈ cs, isDigit d) → isDigit d →
      (∀ d ∈ ds, isDigit d) →
      WrittenAs (.float (String.ofList (c :: cs ++ '.' :: d :: ds))) (c :: cs ++ '.' :: d :: ds)
  | name {c : Char} {cs : List Char} : isWordStart c → (∀ d ∈ cs, isWordPart d) →
      Keyword.ofWord? (String.ofList (c :: cs)) = none →
      WrittenAs (.name (String.ofList (c :: cs))) (c :: cs)
  | keyword (word : Keyword) : WrittenAs (.keyword word) word.spelling.toList
  | symbol (sign : Symbol) : WrittenAs (.symbol sign) sign.spelling.toList

/-- What follows does not go on with the lexeme. -/
def EndsBefore (rest : List Char) : Lexeme → Prop
  | .string _ => True
  | .integer _ => (∀ d ∈ rest.head?, isDigit d = false) ∧ ∀ d more, rest = '.' :: d :: more →
      isDigit d = false
  | .float _ => ∀ d ∈ rest.head?, isDigit d = false
  | .name _ | .keyword _ => ∀ d ∈ rest.head?, isWordPart d = false
  | .symbol sign => ∀ d ∈ rest.head?, ∀ longer : Symbol,
      longer.spelling.toList ≠ sign.spelling.toList ++ [d]

theorem endsBefore_nil (x : Lexeme) : x.EndsBefore [] := by
  cases x with
  | string _ => trivial
  | integer _ => exact ⟨by simp, by simp⟩
  | float _ | name _ | keyword _ | symbol _ => simp [EndsBefore]

/-- What follows may end earlier. -/
theorem EndsBefore.of_append {x : Lexeme} {before after : List Char}
    (h : x.EndsBefore (before ++ after)) : x.EndsBefore before := by
  cases before with
  | nil => exact x.endsBefore_nil
  | cons c before =>
      cases x with
      | integer _ => exact ⟨h.1, fun d more heq => h.2 d (more ++ after) (by rw [heq]; rfl)⟩
      | string _ | float _ | name _ | keyword _ | symbol _ => exact h

/-- The characters begin with a text of the lexeme, which has so many of them and ends there. -/
def Leads (cs : List Char) (n : Nat) (x : Lexeme) : Prop :=
  ∃ text rest, cs = text ++ rest ∧ x.WrittenAs text ∧ x.EndsBefore rest ∧ n = text.length

end Lexeme

namespace Lexer

open Lexeme (WrittenAs EndsBefore Leads)

theorem head_dropWhile {p : Char → Bool} {cs : List Char} :
    ∀ d ∈ (cs.dropWhile p).head?, p d = false := by
  intro d hd
  have := List.head?_dropWhile_not p cs
  rw [Option.mem_def.mp hd] at this
  simpa using this

/-! ### Numbers -/

theorem readLexeme_number {c : Char} (cs : List Char) (hc : isDigit c) :
    readLexeme c cs = .ok (readNumber c cs) := by
  rw [readLexeme, if_neg (startsNumber_of_isDigit hc).2, if_pos hc]

section

variable {c : Char} {cs : List Char}

theorem leads_readNumber (hc : isDigit c) (cs : List Char) :
    (readNumber c cs).1.Leads (c :: cs) (readNumber c cs).2 := by
  have hwhole : ∀ d ∈ cs.takeWhile isDigit, isDigit d := fun d => List.mem_takeWhile_imp
  have hsplit : c :: cs = c :: cs.takeWhile isDigit ++ cs.dropWhile isDigit := by
    rw [List.cons_append, List.takeWhile_append_dropWhile]
  have hhead : ∀ d ∈ (cs.dropWhile isDigit).head?, isDigit d = false := head_dropWhile
  unfold readNumber
  generalize cs.takeWhile isDigit = whole at hwhole hsplit ⊢
  generalize cs.dropWhile isDigit = after at hsplit hhead ⊢
  rw [hsplit]
  have hinteger (h : ∀ d more, after = '.' :: d :: more → isDigit d = false) :
      (Lexeme.integer (String.ofList (c :: whole))).Leads (c :: whole ++ after)
      (c :: whole).length :=
    ⟨_, after, rfl, .integer hc hwhole, ⟨hhead, h⟩, rfl⟩
  split
  · rename_i d more
    split
    · rename_i hd
      have hpart : ∀ d ∈ more.takeWhile isDigit, isDigit d := fun d => List.mem_takeWhile_imp
      refine ⟨_, more.dropWhile isDigit, ?_, .float hc hwhole hd hpart, head_dropWhile, ?_⟩
      · simp
      · simp
        omega
    · rename_i hd
      refine hinteger fun d' more' heq => ?_
      cases heq
      simpa using hd
  · rename_i hpoint
    exact hinteger fun d more heq => absurd heq (hpoint d more)

theorem readNumber_integer_append (hcs : ∀ d ∈ cs, isDigit d) {rest : List Char}
    (hrest : (Lexeme.integer (String.ofList (c :: cs))).EndsBefore rest) :
    readNumber c (cs ++ rest) = (.integer (String.ofList (c :: cs)), (c :: cs).length) := by
  rw [readNumber, takeWhile_append_of_head hcs hrest.1, dropWhile_append_of_head hcs hrest.1]
  split
  · rename_i d more
    rw [hrest.2 d more rfl]
    rfl
  · rfl

theorem readNumber_float_append {d : Char} {ds : List Char} (hcs : ∀ d ∈ cs, isDigit d)
    (hd : isDigit d) (hds : ∀ d ∈ ds, isDigit d) {rest : List Char}
    (hrest : ∀ d ∈ rest.head?, isDigit d = false) :
    readNumber c (cs ++ '.' :: d :: ds ++ rest) =
      (.float (String.ofList (c :: cs ++ '.' :: d :: ds)), (c :: cs ++ '.' :: d :: ds).length) := by
  have hpoint : ∀ e ∈ ('.' :: d :: ds ++ rest).head?, isDigit e = false := by
    rintro _ ⟨⟩
    decide
  rw [List.append_assoc, readNumber, takeWhile_append_of_head hcs hpoint,
    dropWhile_append_of_head hcs hpoint]
  simp only [List.cons_append, hd, if_true, takeWhile_append_of_head hds hrest]
  simp
  omega

end

/-! ### Words -/

theorem spelling_of_ofWord? {text : String} {word : Keyword}
    (h : Keyword.ofWord? text = some word) : word.spelling = text := by
  unfold Keyword.ofWord? at h
  split at h <;> cases h <;> rfl

theorem leads_readWord {c : Char} (hc : isWordStart c) (cs : List Char) :
    (readWord c cs).1.Leads (c :: cs) (readWord c cs).2 := by
  have hword : ∀ d ∈ cs.takeWhile isWordPart, isWordPart d := fun d => List.mem_takeWhile_imp
  have hsplit : c :: cs = c :: cs.takeWhile isWordPart ++ cs.dropWhile isWordPart := by
    rw [List.cons_append, List.takeWhile_append_dropWhile]
  rw [readWord]
  cases hkeyword : Keyword.ofWord? (String.ofList (c :: cs.takeWhile isWordPart)) with
  | none => exact ⟨_, _, hsplit, .name hc hword hkeyword, head_dropWhile, rfl⟩
  | some word =>
      refine ⟨_, _, hsplit, ?_, head_dropWhile, rfl⟩
      have htext := congrArg String.toList (spelling_of_ofWord? hkeyword)
      rw [String.toList_ofList] at htext
      exact htext ▸ .keyword word

theorem readWord_eq {c : Char} {cs rest : List Char} (hcs : ∀ d ∈ cs, isWordPart d)
    (hrest : ∀ d ∈ rest.head?, isWordPart d = false) : readWord c (cs ++ rest) =
      ((Keyword.ofWord? (String.ofList (c :: cs))).elim (.name (String.ofList (c :: cs))) .keyword,
        (c :: cs).length) := by
  rw [readWord, takeWhile_append_of_head hcs hrest]

/-! ### Symbols -/

/-- Only a comparison and the negation sign become other symbols by one character more. -/
theorem longer_symbol {sign longer : Symbol} {d : Char}
    (h : longer.spelling.toList = sign.spelling.toList ++ [d]) :
    d = '=' ∧ (sign = .lt ∨ sign = .gt ∨ sign = .bang) := by
  have hlast : longer.spelling.toList.getLast? = some d := by rw [h, List.getLast?_concat]
  have hfirst : longer.spelling.toList.dropLast = sign.spelling.toList := by
    rw [h, List.dropLast_concat]
  have hlonger : longer.spelling.toList.getLast? = some '=' ∧
      (sign = .lt ∨ sign = .gt ∨ sign = .bang) := by
    clear h hlast
    revert hfirst
    cases sign <;> cases longer <;> decide
  exact ⟨Option.some.inj (hlast.symm.trans hlonger.1), hlonger.2⟩

theorem endsBefore_symbol_iff {sign : Symbol} {rest : List Char} :
    (Lexeme.symbol sign).EndsBefore rest ↔
    (sign = .lt ∨ sign = .gt ∨ sign = .bang → rest.head? ≠ some '=') := by
  constructor
  · rintro h hsign hrest
    obtain rfl | rfl | rfl := hsign
    · exact h '=' hrest .le rfl
    · exact h '=' hrest .ge rfl
    · exact h '=' hrest .ne rfl
  · intro h d hd longer heq
    obtain ⟨rfl, hsign⟩ := longer_symbol heq
    exact h hsign hd

theorem leads_readSymbol? {c : Char} {cs : List Char} {sign : Symbol} {n : Nat}
    (h : readSymbol? c cs = some (sign, n)) : (Lexeme.symbol sign).Leads (c :: cs) n := by
  have leads {cs : List Char} {n : Nat} {sign : Symbol} (rest : List Char)
      (hcs : cs = sign.spelling.toList ++ rest) (hn : n = sign.spelling.toList.length)
      (h : sign = .lt ∨ sign = .gt ∨ sign = .bang → rest.head? ≠ some '=') :
      (Lexeme.symbol sign).Leads cs n :=
    ⟨_, rest, hcs, .symbol sign, endsBefore_symbol_iff.mpr h, hn⟩
  unfold readSymbol? at h
  split at h <;> cases h
  iterate 6
    · rename_i hnext
      obtain ⟨rest, rfl⟩ := List.head?_eq_some_iff.mp hnext
      exact leads rest rfl rfl (by simp)
  all_goals exact leads cs rfl rfl (by simp_all)

theorem readSymbol?_append {sign : Symbol} {rest : List Char}
    (h : (Lexeme.symbol sign).EndsBefore rest) :
    ∃ c cs, sign.spelling.toList = c :: cs ∧ StartsSymbol c ∧
      readSymbol? c (cs ++ rest) = some (sign, (c :: cs).length) := by
  have hstart : ∀ d ∈ symbolStarts, StartsSymbol d := fun d hd => startsSymbol_of_mem hd
  rw [endsBefore_symbol_iff] at h
  cases sign with
  | lt => exact ⟨'<', [], rfl, hstart _ (by decide), by simp [readSymbol?, h]⟩
  | gt => exact ⟨'>', [], rfl, hstart _ (by decide), by simp [readSymbol?, h]⟩
  | bang => exact ⟨'!', [], rfl, hstart _ (by decide), by simp [readSymbol?, h]⟩
  | _ => exact ⟨_, _, rfl, hstart _ (by decide), rfl⟩

theorem exists_readSymbol? {c : Char} {cs rest : List Char} {sign : Symbol}
    (h : c :: cs = sign.spelling.toList ++ rest) : ∃ s n, readSymbol? c cs = some (s, n) := by
  by_cases hends : (Lexeme.symbol sign).EndsBefore rest
  · obtain ⟨c', cs', htext, -, hread⟩ := readSymbol?_append hends
    obtain ⟨rfl, rfl⟩ := List.cons.inj (htext ▸ h)
    exact ⟨_, _, hread⟩
  · -- the symbol goes on, as a longer one
    rw [endsBefore_symbol_iff, Classical.not_imp, not_not] at hends
    obtain ⟨more, rfl⟩ := List.head?_eq_some_iff.mp hends.2
    obtain rfl | rfl | rfl := hends.1 <;> obtain ⟨rfl, rfl⟩ := List.cons.inj h <;> exact ⟨_, _, rfl⟩

/-! ### Lexemes -/

theorem leads_readLexeme {c : Char} {cs : List Char} {x : Lexeme} {n : Nat}
    (h : readLexeme c cs = .ok (x, n)) : x.Leads (c :: cs) n := by
  rw [readLexeme] at h
  split at h
  · rename_i hquote
    split at h
    · rename_i value m hread
      cases h
      obtain ⟨body, rest, rfl, hbody, rfl, rfl⟩ := exists_interior_of_readString hread
      exact ⟨_, rest, by simp, .string hquote hbody, trivial, by simp⟩
    · cases h
  · split at h
    · rename_i hdigit
      have := leads_readNumber hdigit cs
      rwa [Except.ok.inj h] at this
    · split at h
      · rename_i hword
        have := leads_readWord hword cs
        rwa [Except.ok.inj h] at this
      · split at h
        · rename_i hsymbol
          cases h
          exact leads_readSymbol? hsymbol
        · cases h

theorem IsQuote.ne_backslash {quote : Char} (h : IsQuote quote) : quote ≠ '\\' := by
  rcases h with rfl | rfl <;> decide

theorem readLexeme_word {c : Char} {cs rest : List Char} (hc : isWordStart c)
    (hcs : ∀ d ∈ cs, isWordPart d) (hrest : ∀ d ∈ rest.head?, isWordPart d = false) :
      readLexeme c (cs ++ rest) =
        .ok ((Keyword.ofWord? (String.ofList (c :: cs))).elim
          (.name (String.ofList (c :: cs))) .keyword,
        (c :: cs).length) := by
  obtain ⟨-, hquote, hdigit⟩ := startsWord_of_isWordStart hc
  rw [readLexeme, if_neg hquote, hdigit, if_neg Bool.false_ne_true, if_pos hc,
    readWord_eq hcs hrest]

/-- A text of a lexeme begins with no blank, and it is read where nothing goes on with it. -/
theorem readLexeme_of_writtenAs {x : Lexeme} {text rest : List Char} (h : x.WrittenAs text)
    (hrest : x.EndsBefore rest) : ∃ c cs, text = c :: cs ∧ isBlank c = false ∧
      readLexeme c (cs ++ rest) = .ok (x, text.length) := by
  cases h with
  | @string quote body hquote hbody =>
      refine ⟨quote, body ++ [quote], rfl, ?_, ?_⟩
      · rcases hquote with rfl | rfl <;> decide
      · rw [readLexeme, if_pos hquote, List.append_assoc, List.singleton_append,
          readString_interior hquote.ne_backslash hbody]
        simp
  | integer hc hcs =>
      refine ⟨_, _, rfl, isBlank_of_isDigit hc, ?_⟩
      rw [readLexeme_number _ hc, readNumber_integer_append hcs hrest]
  | float hc hcs hd hds =>
      refine ⟨_, _, rfl, isBlank_of_isDigit hc, ?_⟩
      rw [readLexeme_number _ hc]
      exact congrArg Except.ok (readNumber_float_append hcs hd hds hrest)
  | name hc hcs hkeyword =>
      refine ⟨_, _, rfl, (startsWord_of_isWordStart hc).1, ?_⟩
      rw [readLexeme_word hc hcs hrest, hkeyword, Option.elim_none]
  | keyword word =>
      obtain ⟨c, cs, htext, hc, hcs⟩ := keyword_isWord word
      refine ⟨c, cs, htext, (startsWord_of_isWordStart hc).1, ?_⟩
      rw [readLexeme_word hc hcs hrest, htext, ← htext, String.ofList_toList,
        Keyword.ofWord?_spelling, Option.elim_some]
  | symbol sign =>
      obtain ⟨c, cs, htext, hstart, hread⟩ := readSymbol?_append hrest
      refine ⟨c, cs, htext, hstart.blank, ?_⟩
      rw [readLexeme, if_neg hstart.quote, hstart.digit, if_neg Bool.false_ne_true, hstart.word,
        if_neg Bool.false_ne_true, hread, htext]

theorem readLexeme_eq_ok_iff {c : Char} {cs : List Char} {x : Lexeme} {n : Nat} :
    readLexeme c cs = .ok (x, n) ↔ x.Leads (c :: cs) n := by
  refine ⟨leads_readLexeme, ?_⟩
  rintro ⟨text, rest, hcs, htext, hrest, rfl⟩
  obtain ⟨c', cs', rfl, -, hread⟩ := readLexeme_of_writtenAs htext hrest
  obtain ⟨rfl, rfl⟩ := List.cons.inj hcs
  exact hread

/-- What keeps characters from being read: a quote that no other one closes, or a character that
begins the text of no lexeme with those that follow. -/
inductive Unreadable : List Char → ExprProblem → Prop
  | openString {quote : Char} {cs : List Char} : IsQuote quote →
      (∀ body after, Interior quote body → cs ≠ body ++ quote :: after) →
      Unreadable (quote :: cs) .unterminatedString
  | noLexeme {c : Char} {cs : List Char} : isBlank c = false → ¬ IsQuote c →
      (∀ x text after, Lexeme.WrittenAs x text → c :: cs ≠ text ++ after) →
      Unreadable (c :: cs) (.unexpectedCharacter c)

theorem unreadable_of_readLexeme {c : Char} {cs : List Char} {problem : ExprProblem}
    (hblank : isBlank c = false) (h : readLexeme c cs = .error problem) :
    Unreadable (c :: cs) problem := by
  rw [readLexeme] at h
  split at h
  · rename_i hquote
    split at h
    · cases h
    · rename_i hread
      cases h
      refine .openString hquote fun body after hbody hcs => ?_
      rw [hcs, readString_interior (IsQuote.ne_backslash hquote) hbody] at hread
      cases hread
  · rename_i hquote
    split at h
    · cases h
    · rename_i hdigit
      split at h
      · cases h
      · rename_i hword
        split at h
        · cases h
        · rename_i hsymbol
          cases h
          refine .noLexeme hblank hquote fun x text after htext hcs => ?_
          cases htext with
          | string hc _ => exact hquote ((List.cons.inj hcs).1 ▸ hc)
          | integer hc _ | float hc _ _ _ => exact hdigit ((List.cons.inj hcs).1 ▸ hc)
          | name hc _ _ => exact hword ((List.cons.inj hcs).1 ▸ hc)
          | keyword word =>
              obtain ⟨c', cs', htext, hc, -⟩ := keyword_isWord word
              rw [htext] at hcs
              exact hword ((List.cons.inj hcs).1 ▸ hc)
          | symbol sign =>
              obtain ⟨s, n, hread⟩ := exists_readSymbol? hcs
              rw [hread] at hsymbol
              cases hsymbol

end Lexer

/-! ### Delimiters -/

namespace Lexeme

/-- The characters at which every lexeme ends. -/
def delimiters : List Char := [' ', '(', ')', ',']

/-- Nothing follows, or a delimiter comes first. -/
def AtDelimiter (rest : List Char) : Prop := ∀ d ∈ rest.head?, d ∈ delimiters

theorem atDelimiter_nil : AtDelimiter [] := by
  rintro _ ⟨⟩

theorem atDelimiter_cons {c : Char} (h : c ∈ delimiters) (cs : List Char) :
    AtDelimiter (c :: cs) := by
  rintro _ ⟨⟩
  exact h

/-- A delimiter goes on with no number, word or symbol. -/
theorem ends_of_mem_delimiters {d : Char} (h : d ∈ delimiters) :
    isDigit d = false ∧ isWordPart d = false ∧ d ≠ '=' ∧ d ≠ '.' := by
  have hall : delimiters.all fun d => !isDigit d && !isWordPart d && d != '=' &&
      d != '.' := by decide +kernel
  simpa [and_assoc] using List.all_eq_true.mp hall d h

theorem AtDelimiter.endsBefore {rest : List Char} (h : AtDelimiter rest) (x : Lexeme) :
    x.EndsBefore rest := by
  cases rest with
  | nil => exact x.endsBefore_nil
  | cons d rest =>
      obtain ⟨hdigit, hword, hequal, hpoint⟩ := ends_of_mem_delimiters (h d rfl)
      cases x with
      | string _ => trivial
      | integer _ =>
          exact ⟨by simpa [EndsBefore] using hdigit,
            fun _ _ heq => absurd (List.cons.inj heq).1 hpoint⟩
      | float _ => simpa [EndsBefore] using hdigit
      | name _ | keyword _ => simpa [EndsBefore] using hword
      | symbol sign =>
          exact Lexer.endsBefore_symbol_iff.mpr fun _ heq => hequal (Option.some.inj heq)

/-- A lexeme that ends in front of a text also ends there when a delimiter follows the text. -/
theorem EndsBefore.append {x : Lexeme} {cs rest : List Char} (h : x.EndsBefore cs)
    (hrest : AtDelimiter rest) : x.EndsBefore (cs ++ rest) := by
  cases cs with
  | nil => exact hrest.endsBefore x
  | cons c cs =>
      cases x with
      | integer _ =>
          refine ⟨h.1, fun d more heq => ?_⟩
          cases cs with
          | nil =>
              obtain ⟨rfl, rfl⟩ := List.cons.inj heq
              exact (ends_of_mem_delimiters (hrest d rfl)).1
          | cons d' cs =>
              obtain ⟨rfl, hmore⟩ := List.cons.inj heq
              obtain ⟨rfl, -⟩ := List.cons.inj hmore
              exact h.2 _ cs rfl
      | string _ | float _ | name _ | keyword _ | symbol _ => exact h

end Lexeme

end UiMarkup
