import UiMarkup.Proofs.Expr.Tokens
import UiMarkup.Proofs.Number.Margins
import UiMarkup.Proofs.Widget.Attributes
import UiMarkup.Proofs.Widget.Spans

/-!
Parameters of events. All before the first colon is the handler. No expression begins or ends
with a brace, so that the braces around a parameter are taken off without any of its
characters, however many braces stand inside it, and the parameter is placed behind as many
braces as were taken off before it.
-/

namespace UiMarkup

open Text

/-! ### Ends of an expression -/

namespace Lexer

def isBrace (c : Char) : Bool := c == '\x7b' || c == '\x7d'

/-- The characters of a class without braces. -/
theorem isBrace_of_class {p : Char → Bool} (hopen : p '\x7b' = false) (hclose : p '\x7d' = false)
    {c : Char} (hc : p c) : isBrace c = false := by
  have hne {d : Char} (hd : p d = false) : (c == d) = false :=
    beq_false_of_ne fun heq => Bool.false_ne_true (hd.symm.trans (heq ▸ hc))
  rw [isBrace, hne hopen, hne hclose, Bool.or_false]

theorem isBrace_of_isDigit {c : Char} : isDigit c → isBrace c = false :=
  isBrace_of_class (by decide) (by decide)

theorem isBrace_of_isWordPart {c : Char} : isWordPart c → isBrace c = false :=
  isBrace_of_class (by decide +kernel) (by decide +kernel)

theorem isBrace_of_isWordStart {c : Char} : isWordStart c → isBrace c = false :=
  isBrace_of_class (by decide +kernel) (by decide +kernel)

theorem isBrace_of_isQuote {c : Char} (hc : IsQuote c) : isBrace c = false := by
  rcases hc with rfl | rfl <;> rfl

end Lexer

open Lexer
    (isWordStart isWordPart isBrace isBrace_of_isDigit isBrace_of_isWordPart isBrace_of_isWordStart)

/-- Only between the quotes of a string there may be braces. -/
theorem Lexeme.WrittenAs.bare {x : Lexeme} {text : List Char} (h : x.WrittenAs text) :
    Bare isBrace text := by
  have digits {c : Char} {cs : List Char} (hc : isDigit c) (hcs : ∀ d ∈ cs, isDigit d) :
      Bare isBrace (c :: cs) :=
    .of_forall
      (List.forall_mem_cons.mpr ⟨isBrace_of_isDigit hc, fun d hd => isBrace_of_isDigit (hcs d hd)⟩)
  have letters {c : Char} {cs : List Char} (hc : isWordStart c) (hcs : ∀ d ∈ cs, isWordPart d) :
      Bare isBrace (c :: cs) :=
    .of_forall
      (List.forall_mem_cons.mpr
        ⟨isBrace_of_isWordStart hc, fun d hd => isBrace_of_isWordPart (hcs d hd)⟩)
  cases h with
  | @string quote body hquote _ =>
      have hbare := Lexer.isBrace_of_isQuote hquote
      refine ⟨?_, ?_⟩
      · rintro _ ⟨⟩
        exact hbare
      · rw [← List.cons_append, List.getLast?_concat]
        rintro _ ⟨⟩
        exact hbare
  | integer hc hcs => exact digits hc hcs
  | float hc hcs hd hds =>
      have hpoint : Bare isBrace ['.'] := .of_forall (List.forall_mem_singleton.mpr rfl)
      exact (digits hc hcs).append (hpoint.append (digits hd hds))
  | name hc hcs _ => exact letters hc hcs
  | keyword word =>
      obtain ⟨c, cs, htext, hc, hcs⟩ := Lexer.keyword_isWord word
      exact htext ▸ letters hc hcs
  | symbol sign =>
      have hall : sign.spelling.toList.all fun c => !isBrace c := by cases sign <;> rfl
      exact .of_forall fun c hc => by simpa using List.all_eq_true.mp hall c hc

theorem Lexer.Scans.bare {offset : Nat} {cs : List Char} {ts : List Token}
    (h : Scans offset cs ts) : Bare isBrace cs := by
  induction h with
  | done => exact .of_forall (List.forall_mem_nil _)
  | blank hc _ ih =>
      have hblank := Lexer.isBrace_of_class (by decide) (by decide) hc
      exact (Bare.of_forall (List.forall_mem_singleton.mpr hblank)).append ih
  | token htext _ _ ih => exact htext.bare.append ih

/-- An expression neither begins nor ends with a brace. -/
theorem ExprParser.bare_of_parse {text : List Char} {e : Expr} (h : parse text = .ok e) :
    Bare isBrace text := by
  obtain ⟨ts, hts, -⟩ := exists_tokens_of_parse h
  exact (Lexer.tokens_eq_ok_iff.mp hts).bare

/-! ### Places of parameters -/

/-- The value is written at the place as it is. -/
def ValuePlace.Holds (p : ValuePlace) (value : List Char) (m : SourceMap) : Prop :=
  ∃ before after, m.bytes = before ++ encodeUtf8 value ++ after ∧ p.span.start = before.length

/-- The span of the binding is that of a text in a value, with some characters before
it and some behind it. -/
structure Binding.StandsFor (p : ValuePlace) (before text after : List Char) (b : Binding) :
    Prop where
  start : b.span.start = p.span.start + utf8Length before
  stop : b.span.stop = b.span.start + utf8Length text
  position : (b.span.line, b.span.column) = (p.after before).2
  region : ∀ m, p.Holds (before ++ (text ++ after)) m → m.slice b.span = encodeUtf8 text

theorem Binding.standsFor_of_span {p : ValuePlace} {before text : List Char}
    {b : Binding} (h : b.span =
      ⟨(p.after before).1, (p.after before).1 + utf8Length text, (p.after before).2.1,
        (p.after before).2.2⟩)
    (after : List Char) : b.StandsFor p before text after := by
  have hstart : b.span.start = p.span.start + utf8Length before := by
    rw [h]
    exact p.after_fst before
  have hstop : b.span.stop = b.span.start + utf8Length text := by rw [h]
  refine ⟨hstart, hstop, by rw [h], ?_⟩
  rintro m ⟨first, last, hbytes, hplace⟩
  exact SourceMap.slice_eq hbytes (hplace ▸ hstart) hstop

/-! ### Events with a parameter -/

namespace EventBinding

variable {name : String} {event : EventKind} {handler param text : List Char}

theorem quotedText?_eq_some_iff :
    quotedText? param = some text ↔ param = '\'' :: (text ++ ['\'']) := by
  constructor
  · intro h
    unfold quotedText? at h
    split at h
    · rw [dropSuffix?_eq_some_iff.mp h]
    · cases h
  · rintro rfl
    exact dropSuffix?_eq_some_iff.mpr rfl

theorem bare_closed (h : Bare isBrace text) : Bare (· == '\x7b') (text ++ ['\x7d']) :=
  (h.mono fun _ hc => (Bool.or_eq_false_iff.mp hc).1).append (.of_forall (by simp))

/-- One brace at each end goes, and nothing of what stands between them. -/
theorem withoutBraces_of_bare (h : Bare isBrace text) :
    withoutBraces ('\x7b' :: (text ++ ['\x7d'])) = text := by
  have hclose : Bare (· == '\x7d') text := h.mono fun _ hc => (Bool.or_eq_false_iff.mp hc).2
  calc withoutBraces ('\x7b' :: (text ++ ['\x7d']))
      = trimBy (· == '\x7d') (trimBy (· == '\x7b') (['\x7b'] ++ (text ++ ['\x7d']) ++ [])) := by
        rw [List.append_nil]
        rfl
    _ = trimBy (· == '\x7d') ([] ++ text ++ ['\x7d']) := by
        rw [(bare_closed h).trimBy_append (by simp) (by simp), List.nil_append]
    _ = text := hclose.trimBy_append (by simp) (by simp)

theorem takeWhile_of_bare (h : Bare isBrace text) :
    ('\x7b' :: (text ++ ['\x7d'])).takeWhile (· == '\x7b') = ['\x7b'] := by
  have hbraces : ∀ c ∈ ['\x7b'], (c == '\x7b') = true := by simp
  exact Text.takeWhile_append_of_head hbraces (bare_closed h).first

section

variable (hevent : EventKind.ofAttribute? name = some event) (hhandler : ':' ∉ handler)
    (p : ValuePlace)
include hevent hhandler

theorem parse_of_quoted (text : List Char) :
    parse name (String.ofList (handler ++ ':' :: '\'' :: (text ++ ['\'']))) p = .ok (some
      ⟨event, String.ofList handler,
        some (literalParam p (handler ++ [':']) ('\'' :: (text ++ ['\''])) text), p.span⟩) := by
  rw [parse, hevent, String.toList_ofList, cut?_append hhandler]
  dsimp only
  rw [quotedText?_eq_some_iff.mpr rfl]

theorem parse_of_bind_eq_ok (hquoted : quotedText? param = none) {b : Binding}
    (hb : p.bind (handler ++ [':'] ++ param.takeWhile (· == '\x7b')) (withoutBraces param) =
      .ok b) :
    parse name (String.ofList (handler ++ ':' :: param)) p =
      .ok (some ⟨event, String.ofList handler, some b, p.span⟩) := by
  rw [parse, hevent, String.toList_ofList, cut?_append hhandler]
  dsimp only
  rw [hquoted]
  dsimp only
  rw [hb]

/-- An expression in braces and a text in quotes become the parameter as they are, and its span is
where they stand. With anything else behind the colon that is no expression, the whole value is
the name of the handler. -/
theorem parse_with_param :
    (∀ text e, ExprParser.parse text = .ok e → ∃ b,
      parse name (String.ofList (handler ++ ':' :: '\x7b' :: (text ++ ['\x7d']))) p =
        .ok (some ⟨event, String.ofList handler, some b, p.span⟩) ∧
      b.expr = e ∧ b.StandsFor p (handler ++ [':', '\x7b']) text ['\x7d']) ∧
    (∀ text, ∃ b,
      parse name (String.ofList (handler ++ ':' :: '\'' :: (text ++ ['\'']))) p =
        .ok (some ⟨event, String.ofList handler, some b, p.span⟩) ∧
      b.expr = .literal (.string (String.ofList text)) ∧
      b.StandsFor p (handler ++ [':']) ('\'' :: (text ++ ['\''])) []) ∧
    ∀ param, (∀ text, param ≠ '\'' :: (text ++ ['\''])) →
      (∀ e, ExprParser.parse (withoutBraces param) ≠ .ok e) →
      ExprParser.NumbersConvert (withoutBraces param) →
      parse name (String.ofList (handler ++ ':' :: param)) p =
        .ok (some ⟨event, String.ofList (handler ++ ':' :: param), none, p.span⟩) := by
  refine ⟨fun text e he => ?_, fun text => ?_, fun param hquoted hno hnumbers => ?_⟩
  · have hbare := ExprParser.bare_of_parse he
    have hquoted : quotedText? ('\x7b' :: (text ++ ['\x7d'])) = none := rfl
    obtain ⟨b, hb, hexpr⟩ := p.bind_eq_ok_of_parse (handler ++ [':'] ++ ['\x7b']) he
    refine ⟨b, parse_of_bind_eq_ok hevent hhandler p hquoted ?_, hexpr, ?_⟩
    · rw [takeWhile_of_bare hbare, withoutBraces_of_bare hbare, hb]
    · rw [List.append_assoc] at hb
      exact Binding.standsFor_of_span (ValuePlace.span_of_bind_eq_ok hb) ['\x7d']
  · exact ⟨_, parse_of_quoted hevent hhandler p text, rfl, Binding.standsFor_of_span rfl []⟩
  · have hnone : quotedText? param = none := by
      cases h : quotedText? param with
      | none => rfl
      | some text => exact absurd (quotedText?_eq_some_iff.mp h) (hquoted text)
    obtain ⟨e, he⟩ | ⟨err, herr⟩ := ExprParser.parse_eq_ok_or_malformed hnumbers
    · exact absurd he (hno e)
    · have htext : paramText? (String.ofList (handler ++ ':' :: param)) =
          some (withoutBraces param) := by
        rw [paramText?, String.toList_ofList, cut?_append hhandler]
        simp [hnone]
      exact parse_of_malformed hevent htext herr p

end

set_option maxRecDepth 8000 in
/-- A brace and a colon inside a string, a quote and braces inside a text, and an expression
that is not finished. -/
theorem parse_with_param_inButton :
    EventKind.ofAttribute? "on_click" = some .click ∧ ':' ∉ ['g', 'o'] ∧
      ∃ source : SourceMap, ∃ p : ValuePlace, p.Holds "go:\x7ba == '\x7d:'\x7d".toList source ∧
        (∃ b, parse "on_click" "go:\x7ba == '\x7d:'\x7d" p =
          .ok (some ⟨.click, "go", some b, p.span⟩) ∧
          b.expr = .binary .eq (.field ["a"]) (.literal (.string "\x7d:")) ∧
          source.slice b.span = encodeUtf8 "a == '\x7d:'".toList) ∧
        (∃ b, parse "on_click" "go:'it's \x7bx\x7d'" p = .ok (some ⟨.click, "go", some b, p.span⟩) ∧
          b.expr = .literal (.string "it's \x7bx\x7d")) ∧
        parse "on_click" "go:\x7ba +\x7d" p =
          .ok (some ⟨.click, "go:\x7ba +\x7d", none, p.span⟩) := by
  have hevent : EventKind.ofAttribute? "on_click" = some .click := by decide
  have hhandler : ':' ∉ ['g', 'o'] := by decide
  have hexpr : ExprParser.parse "a == '\x7d:'".toList =
      .ok (.binary .eq (.field ["a"]) (.literal (.string "\x7d:"))) := by decide +kernel
  have hunfinished : ExprParser.parse "a +".toList =
      .error (.malformed ⟨.missing .operand none, 3⟩) := by decide +kernel
  have htokens : Lexer.tokens "a +".toList = .ok [⟨.name "a", 0, 1⟩, ⟨.symbol .plus, 2, 1⟩] := by
    decide +kernel
  have hwithout : withoutBraces "\x7ba +\x7d".toList = "a +".toList := by decide
  let p : ValuePlace := ⟨⟨18, 32, 1, 19⟩, none⟩
  let source : SourceMap := ⟨encodeUtf8 "<button on_click=\"go:\x7ba == '\x7d:'\x7d\"/>".toList⟩
  have hholds : p.Holds "go:\x7ba == '\x7d:'\x7d".toList source := by
    refine ⟨encodeUtf8 "<button on_click=\"".toList, encodeUtf8 "\"/>".toList, ?_, ?_⟩ <;> decide
  obtain ⟨hbraces, hquotes, hother⟩ := parse_with_param hevent hhandler p
  obtain ⟨b, hb, hbexpr, hstands⟩ := hbraces _ _ hexpr
  obtain ⟨b', hb', hbexpr', -⟩ := hquotes "it's \x7bx\x7d".toList
  have hregion := hstands.region source hholds
  refine ⟨hevent, hhandler, source, p, hholds, ⟨b, hb, hbexpr, hregion⟩, ⟨b', hb', hbexpr'⟩, ?_⟩
  refine hother "\x7ba +\x7d".toList ?_ ?_ ?_
  · intro text htext
    cases htext
  · intro e he
    rw [hwithout, hunfinished] at he
    cases he
  · intro ts hts
    rw [hwithout, htokens] at hts
    obtain rfl := Except.ok.inj hts
    simp [Lexeme.Convertible]

end EventBinding

end UiMarkup
