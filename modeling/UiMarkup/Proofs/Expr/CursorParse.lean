import UiMarkup.Expr.Binding
import UiMarkup.Proofs.Expr.Cursor
import UiMarkup.Proofs.Expr.ErrorOffsets
import UiMarkup.Proofs.Text.Utf8

/-!
The parser over an index does as the parser over the tokens left, reader by reader: where the index
stands at the first one of some tokens, it goes on as the reader of these tokens, unless its calls
nest too deep (`Cursor.parse_follows`). So it looks up no token that is not there, and its
complaints stand within the text (`Binding.parse_within`).
-/

namespace UiMarkup.ExprParser

namespace Cursor

/-! ### Readers of lists -/

/-- The reader over the index does as the reader of a list: it fails likewise, or it has the
same value and stands where the tokens begin that are left. Or else its calls nest too deep, but
not if `enough` holds. -/
def Follows {α : Type} {n : Nat} (ms : List Mark) (stop : Nat) (enough : Prop)
    (r : Except ExprFault (Parsed α n)) (x : Except Halt (α × Nat)) : Prop :=
  (¬ enough ∧ x = .error .tooDeep) ∨
    match r with
    | .ok p => ∃ j, Stands ms stop j p.rest ∧ x = .ok (p.value, j)
    | .error fault => x = .error (.refused fault)

section

variable {α β : Type} {m n i j : Nat} {ms : List Mark} {stop : Nat}
    {us : List Token} {enough : Prop}

theorem Follows.ok {a : α} {h : us.length < n} (hus : Stands ms stop i us) :
    Follows ms stop enough (.ok ⟨a, us, h⟩ : Except ExprFault (Parsed α n))
      ((pure a : Cursor α).run i) :=
  .inr ⟨i, hus, rfl⟩

theorem Follows.missing {what : Expected} (hus : Stands ms stop i us) :
    Follows ms stop enough (.error (missing stop what us) : Except ExprFault (Parsed α n))
      ((complain ms what : Cursor α).run i) :=
  .inr (run_complain hus what)

theorem Follows.tooDeep {r : Except ExprFault (Parsed α n)} (h : ¬ enough) :
    Follows ms stop enough r ((throw .tooDeep : Cursor α).run i) :=
  .inl ⟨h, rfl⟩

/-- A reader that is called may nest as deep as it needs if its caller may. -/
theorem Follows.mono {enough' : Prop} {r : Except ExprFault (Parsed α n)}
    {x : Except Halt (α × Nat)} (h : Follows ms stop enough r x) (himp : enough' → enough) :
    Follows ms stop enough' r x :=
  h.imp_left fun ⟨hno, hx⟩ => ⟨mt himp hno, hx⟩

theorem Follows.bind {r : Except ExprFault (Parsed α m)}
    {f : Parsed α m → Except ExprFault (Parsed β n)} {q : Cursor α} {k : α → Cursor β}
    (hr : Follows ms stop enough r (q.run i))
    (hf : ∀ p j, Stands ms stop j p.rest → Follows ms stop enough (f p) ((k p.value).run j)) :
    Follows ms stop enough (r >>= f) ((q >>= k).run i) := by
  rcases hr with ⟨hno, hq⟩ | hr
  · exact .inl ⟨hno, run_bind_error hq⟩
  · match r, hr with
    | .ok p, ⟨j, hj, hq⟩ =>
      rw [run_bind_ok hq]
      exact hf p j hj
    | .error fault, hr => exact .inr (run_bind_error hr)

/-- What the reader of a list has, without going on with it. -/
theorem Follows.through {p : Parsed α m} {r : Except ExprFault (Parsed β n)} {q : Cursor α}
    {k : α → Cursor β} (hp : Follows ms stop enough (.ok p) (q.run i))
    (hr : ∀ j, Stands ms stop j p.rest → Follows ms stop enough r ((k p.value).run j)) :
    Follows ms stop enough r ((q >>= k).run i) := by
  rcases hp with ⟨hno, hq⟩ | ⟨j, hj, hq⟩
  · exact .inl ⟨hno, run_bind_error hq⟩
  · rw [run_bind_ok hq]
    exact hr j hj

/-- The reader of a list only widens the bound of what it read last. -/
theorem Follows.widen {r : Except ExprFault (Parsed α m)}
    {f : Parsed α m → Except ExprFault (Parsed α n)} {x : Except Halt (α × Nat)}
    (hr : Follows ms stop enough r x) (hf : ∀ p, ∃ h, f p = .ok ⟨p.value, p.rest, h⟩) :
    Follows ms stop enough (r >>= f) x := by
  refine hr.imp_right fun hr => ?_
  match r, hr with
  | .ok p, ⟨j, hj, hx⟩ =>
    obtain ⟨h, hp⟩ := hf p
    change match f p with | .ok p => _ | .error fault => _
    rw [hp]
    exact ⟨j, hj, hx⟩
  | .error fault, hr => exact hr

/-- The reader over the index has taken a step. -/
theorem Follows.after {r : Except ExprFault (Parsed β n)} {q : Cursor α} {k : α → Cursor β} {a : α}
    (hq : q.run i = .ok (a, j)) (h : Follows ms stop enough r ((k a).run j)) :
    Follows ms stop enough r ((q >>= k).run i) := by
  rwa [run_bind_ok hq]

end

section

variable {ms : List Mark} {stop i : Nat} {us : List Token}

theorem expect_follows {enough : Prop} (h : Stands ms stop i us) (l : Lexeme) (what : Expected) :
    Follows ms stop enough (ExprParser.expect stop l what us) ((expect ms l what).run i) := by
  rw [expect]
  refine .after (run_sees h l) ?_
  cases us with
  | nil => exact .missing h
  | cons u us =>
      by_cases hu : u.lexeme = l
      · rw [ExprParser.expect, if_pos hu, if_pos (by simpa using hu)]
        exact .after (run_advance h) (.ok h.tail)
      · rw [ExprParser.expect, if_neg hu, if_neg (by simpa using hu)]
        exact .missing h

theorem segments_follows (depth : Nat) (h : Stands ms stop i us) :
    Follows ms stop (us.length < depth) (.ok (ExprParser.segments us))
      ((segments ms depth).run i) := by
  induction depth generalizing i us with
  | zero => exact .tooDeep (by simp)
  | succ depth ih =>
      rw [segments, ExprParser.segments.eq_def]
      refine .after (run_sees h _) ?_
      split
      · rename_i text _ _ ts
        refine .after (run_peek h) (.after (run_advance h) (.after (run_advance h.tail) ?_))
        refine .through ((ih h.tail.tail).mono fun hlt => ?_) fun j hj => .ok hj
        simp only [List.length_cons] at hlt
        omega
      · rename_i hno
        by_cases hdot : us.head?.map Token.lexeme = some (.symbol .dot)
        · obtain ⟨o, n, us, rfl⟩ := exists_cons_of_lexeme hdot
          rw [if_pos (by simp)]
          refine .after (run_peek h) ?_
          rw [lexeme_firstMark]
          split
          · rename_i text hname
            obtain ⟨o', n', us, rfl⟩ := exists_cons_of_lexeme hname
            exact (hno _ _ _ _ _ _ rfl).elim
          · exact .ok h
        · rw [if_neg (by simpa using hdot)]
          exact .ok h

/-- Where an operand is to begin that has no prefix operator. -/
def primaryOf (stop : Nat) : (us : List Token) → Except ExprFault (Parsed Expr us.length)
  | [] => .error (missing stop .operand [])
  | u :: after => ExprParser.primary stop u after

/-- Each reader over the index does as the one of the lists, from where the tokens stand. As deep as
the measure by which the reader of the list ends is deep enough. The reader of arguments begins at
the parenthesis in front of them. -/
structure Tracks (ms : List Mark) (stop depth : Nat) : Prop where
  expression : ∀ us i, Stands ms stop i us →
    Follows ms stop (us.length * 16 + 9 < depth) (ExprParser.expression stop us)
    ((expression ms depth).run i)
  binary : ∀ level us i, Stands ms stop i us →
    Follows ms stop (us.length * 16 + 3 + level.rank < depth) (ExprParser.binary stop level us)
    ((binary ms depth level).run i)
  operators : ∀ level left us i, Stands ms stop i us → Follows ms stop (us.length * 16 + 9 < depth)
    (binaryTail stop level left us) ((operators ms depth level left).run i)
  unary : ∀ us i, Stands ms stop i us →
    Follows ms stop (us.length * 16 + 2 < depth) (ExprParser.unary stop us) ((unary ms depth).run i)
  primary : ∀ us i, Stands ms stop i us →
    Follows ms stop (us.length * 16 + 1 < depth) (primaryOf stop us) ((primary ms depth).run i)
  calls : ∀ receiver us i, Stands ms stop i us → Follows ms stop (us.length * 16 + 1 < depth)
    (ExprParser.calls stop receiver us) ((calls ms depth receiver).run i)
  arguments : ∀ us o n i, Stands ms stop i (⟨.symbol .leftParen, o, n⟩ :: us) →
    Follows ms stop (us.length * 16 + 11 < depth) (ExprParser.arguments stop us)
    ((arguments ms depth).run i)
  argumentList : ∀ us i, Stands ms stop i us → Follows ms stop (us.length * 16 + 10 < depth)
    (ExprParser.argumentList stop us) ((argumentList ms depth).run i)

end

section

variable {ms : List Mark} {stop depth : Nat} (ih : Tracks ms stop depth)

include ih

theorem expression_follows (us : List Token) (i : Nat) (h : Stands ms stop i us) :
    Follows ms stop (us.length * 16 + 9 < depth + 1) (ExprParser.expression stop us)
      ((expression ms (depth + 1)).run i) := by
  unfold ExprParser.expression expression
  split
  · rename_i after
    refine .after (run_consumeIf h rfl) ?_
    rw [if_pos rfl]
    refine .bind ((ih.binary .disjunction after _ h.tail).mono fun hlt => ?_) fun c j hj => ?_
    · simp only [List.length_cons, Level.rank] at hlt ⊢
      omega
    refine .bind (expect_follows hj _ _) fun t j hj => ?_
    have h₁ := Nat.lt_trans t.shorter c.shorter
    refine .bind ((ih.expression t.rest j hj).mono fun hlt => ?_) fun yes j hj => ?_
    · simp only [List.length_cons] at hlt
      omega
    refine .bind (expect_follows hj _ _) fun e j hj => ?_
    have h₂ := Nat.lt_trans e.shorter yes.shorter
    refine .bind ((ih.expression e.rest j hj).mono fun hlt => ?_) fun no j hj => .ok hj
    simp only [List.length_cons] at hlt
    omega
  · rename_i hno
    refine .after (run_consumeIf_of_ne h fun hif => ?_)
      ((ih.binary .disjunction us i h).mono fun hlt => ?_)
    · obtain ⟨_, _, after, rfl⟩ := exists_cons_of_lexeme hif
      exact hno _ _ _ rfl
    · simp only [Level.rank]
      omega

theorem binary_follows (level : Level) (us : List Token) (i : Nat) (h : Stands ms stop i us) :
    Follows ms stop (us.length * 16 + 3 + level.rank < depth + 1) (ExprParser.binary stop level us)
      ((binary ms (depth + 1) level).run i) := by
  rw [ExprParser.binary, binary]
  by_cases hl : level = .operand
  · rw [dif_pos hl, if_pos hl]
    exact (ih.unary us i h).mono fun hlt => by omega
  · have hrank := Level.rank_tighter hl
    rw [dif_neg hl, if_neg hl]
    refine .bind ((ih.binary level.tighter us i h).mono fun hlt => by omega) fun first j hj => ?_
    have hshorter := first.shorter
    refine .widen ((ih.operators level _ first.rest j hj).mono fun hlt => by omega) fun chain => ?_
    exact ⟨_, rfl⟩

theorem operators_follows (level : Level) (left : Expr) (us : List Token) (i : Nat)
    (h : Stands ms stop i us) :
    Follows ms stop (us.length * 16 + 9 < depth + 1) (binaryTail stop level left us)
      ((operators ms (depth + 1) level left).run i) := by
  unfold binaryTail operators
  refine .after (run_current h) ?_
  rw [lexeme_firstMark]
  split
  · rename_i s o n after
    dsimp only [List.head?_cons, Option.map_some]
    cases level.operator? s with
    | none => exact .ok h
    | some op =>
        have hrank := Level.rank_le level.tighter
        refine .after (run_advance h)
          (.bind ((ih.binary level.tighter after _ h.tail).mono fun hlt => ?_)
          fun right j hj => ?_)
        · simp only [List.length_cons] at hlt
          omega
        have hshorter := right.shorter
        refine .widen ((ih.operators level _ right.rest j hj).mono fun hlt => ?_) fun chain =>
          ⟨_, rfl⟩
        simp only [List.length_cons] at hlt
        omega
  · rename_i hno
    split
    · rename_i s hs
      obtain ⟨o, n, after, rfl⟩ := exists_cons_of_lexeme hs
      exact (hno _ _ _ _ rfl).elim
    · exact .ok h

theorem unary_follows (us : List Token) (i : Nat) (h : Stands ms stop i us) :
    Follows ms stop (us.length * 16 + 2 < depth + 1) (ExprParser.unary stop us)
      ((unary ms (depth + 1)).run i) := by
  have hprimary := (ih.primary us i h).mono (fun hlt : us.length * 16 + 2 < depth + 1 => by omega)
  unfold ExprParser.unary unary
  refine .after (run_current h) ?_
  rw [lexeme_firstMark]
  split
  · -- at the end nothing is read that could be gone on with
    exact .bind (f := fun _ => .error (missing stop .operand [])) hprimary fun first _ _ =>
      absurd first.shorter (Nat.not_lt_zero _)
  · rename_i u after
    dsimp only [List.head?_cons, Option.map_some, Option.bind_some]
    cases prefixOp? u.lexeme with
    | some op =>
        refine .after (run_advance h) (.bind ((ih.unary after _ h.tail).mono fun hlt => ?_)
          fun operand j hj => .ok hj)
        simp only [List.length_cons] at hlt
        omega
    | none =>
        refine .bind hprimary fun first j hj => ?_
        have hshorter := first.shorter
        refine .widen ((ih.calls _ first.rest j hj).mono fun hlt => by omega) fun chain => ⟨_, rfl⟩

theorem primary_follows (us : List Token) (i : Nat) (h : Stands ms stop i us) :
    Follows ms stop (us.length * 16 + 1 < depth + 1) (primaryOf stop us)
      ((primary ms (depth + 1)).run i) := by
  rw [primary]
  refine .after (run_current h) ?_
  rw [lexeme_firstMark]
  cases us with
  | nil => exact .missing h
  | cons u after =>
      rw [primaryOf, ExprParser.primary]
      dsimp only [List.head?_cons, Option.map_some, Option.bind_some]
      cases literal? u.lexeme with
      | some value =>
          cases value with
          | ok l => exact .after (run_advance h) (.ok h.tail)
          | error fault => exact .after (run_advance h) (.inr rfl)
      | none =>
          dsimp only
          cases hx : u.lexeme with
          | name first =>
              dsimp only
              refine .after (run_advance h) ?_
              refine .through ((segments_follows depth h.tail).mono fun hlt => ?_) fun j hj => ?_
              · simp only [List.length_cons] at hlt
                omega
              refine .after (run_sees hj _) ?_
              have hshorter := (ExprParser.segments after).shorter
              split
              · rename_i inner hrest
                rw [if_pos (by simp [hrest])]
                rw [hrest] at hj hshorter
                refine .bind ((ih.arguments inner _ _ j hj).mono fun hlt => ?_) fun args j hj =>
                  .ok hj
                simp only [List.length_cons] at hlt hshorter
                omega
              · rename_i hno
                rw [if_neg ?_]
                · exact .ok hj
                · intro hparen
                  obtain ⟨_, _, inner, hinner⟩ := exists_cons_of_lexeme (by simpa using hparen)
                  exact hno _ _ _ hinner
          | symbol s =>
              cases s with
              | leftParen =>
                  refine .after (run_advance h)
                    (.bind ((ih.expression after _ h.tail).mono fun hlt => ?_)
                    fun inner j hj => ?_)
                  · simp only [List.length_cons] at hlt
                    omega
                  exact .bind (expect_follows hj _ _) fun close j hj => .ok hj
              | _ => exact .missing h
          | string _ | integer _ | float _ | keyword _ => exact .missing h

theorem calls_follows (receiver : Expr) (us : List Token) (i : Nat) (h : Stands ms stop i us) :
    Follows ms stop (us.length * 16 + 1 < depth + 1) (ExprParser.calls stop receiver us)
      ((calls ms (depth + 1) receiver).run i) := by
  unfold ExprParser.calls calls
  split
  · rename_i o n after
    refine .after (run_consumeIf h rfl) ?_
    rw [if_pos rfl]
    refine .after (run_current h.tail) ?_
    rw [lexeme_firstMark]
    split
    · rename_i method o' n' o'' n'' inner
      dsimp only [List.head?_cons, Option.map_some]
      refine .after (run_advance h.tail) (.after (run_sees h.tail.tail _) ?_)
      rw [if_pos (by simp)]
      refine .bind ((ih.arguments inner _ _ _ h.tail.tail).mono fun hlt => ?_) fun args j hj => ?_
      · simp only [List.length_cons] at hlt
        omega
      have hshorter := args.shorter
      refine .widen ((ih.calls _ args.rest j hj).mono fun hlt => ?_) fun chain => ⟨_, rfl⟩
      simp only [List.length_cons] at hlt
      omega
    · rename_i method o' n' other hno
      dsimp only [List.head?_cons, Option.map_some]
      refine .after (run_advance h.tail) (.after (run_sees h.tail.tail _) ?_)
      rw [if_neg ?_]
      · exact .missing h.tail.tail
      · intro hparen
        obtain ⟨_, _, inner, rfl⟩ := exists_cons_of_lexeme (by simpa using hparen)
        exact hno _ _ _ rfl
    · rename_i other _ hno
      split
      · rename_i method hname
        obtain ⟨_, _, more, rfl⟩ := exists_cons_of_lexeme hname
        exact (hno _ _ _ _ rfl).elim
      · exact .missing h.tail
  · rename_i hno
    refine .after (run_consumeIf_of_ne h fun hdot => ?_) (.ok h)
    obtain ⟨_, _, after, rfl⟩ := exists_cons_of_lexeme hdot
    exact hno _ _ _ rfl

theorem arguments_follows (us : List Token) (o n i : Nat)
    (h : Stands ms stop i (⟨.symbol .leftParen, o, n⟩ :: us)) :
    Follows ms stop (us.length * 16 + 11 < depth + 1) (ExprParser.arguments stop us)
      ((arguments ms (depth + 1)).run i) := by
  unfold ExprParser.arguments arguments
  refine .after (run_consumeIf h rfl) ?_
  rw [if_pos rfl]
  split
  · rename_i after
    exact .after (run_consumeIf h.tail rfl) (.ok h.tail.tail)
  · rename_i hno
    refine .after (run_consumeIf_of_ne h.tail fun hparen => ?_)
      ((ih.argumentList us _ h.tail).mono fun hlt => by omega)
    obtain ⟨_, _, after, rfl⟩ := exists_cons_of_lexeme hparen
    exact hno _ _ _ rfl

theorem argumentList_follows (us : List Token) (i : Nat) (h : Stands ms stop i us) :
    Follows ms stop (us.length * 16 + 10 < depth + 1) (ExprParser.argumentList stop us)
      ((argumentList ms (depth + 1)).run i) := by
  rw [ExprParser.argumentList, argumentList]
  refine .bind ((ih.expression us i h).mono fun hlt => by omega) fun first j hj => ?_
  have hshorter := first.shorter
  dsimp only
  split
  · rename_i o n after hrest
    rw [hrest] at hshorter hj
    refine .after (run_consumeIf hj rfl) ?_
    refine .bind ((ih.argumentList after _ hj.tail).mono fun hlt => ?_) fun more j hj => .ok hj
    simp only [List.length_cons] at hshorter
    omega
  · rename_i hno
    refine .after (run_consumeIf_of_ne hj fun hcomma => ?_) ?_
    · obtain ⟨_, _, after, hafter⟩ := exists_cons_of_lexeme hcomma
      exact hno _ _ _ hafter
    · exact .bind (expect_follows hj _ _) fun close j hj => .ok hj

end

theorem tracks (ms : List Mark) (stop depth : Nat) : Tracks ms stop depth := by
  induction depth with
  | zero => constructor <;> intros <;> exact .tooDeep (by simp)
  | succ depth ih =>
      exact ⟨expression_follows ih, binary_follows ih, operators_follows ih, unary_follows ih,
        primary_follows ih, calls_follows ih, arguments_follows ih, argumentList_follows ih⟩

/-! ### Texts -/

theorem parse_of_tokens {source : List Char} {ts : List Token} (hts : Lexer.tokens source = .ok ts)
    (depth : Nat) :
    (depth ≤ ts.length * 16 + 9 ∧ parse depth source = .error .tooDeep) ∨
      parse depth source = (ExprParser.parse source).mapError .refused := by
  have h : Stands (ts.map Token.mark ++ [.stop source.length]) source.length 0 ts := rfl
  rw [parse, Lexer.marked_of_scans (Lexer.tokens_eq_ok_iff.mp hts), ExprParser.parse,
    Lexer.scan_of_tokens hts]
  dsimp only
  rw [whole, run_bind_ok (run_current h)]
  cases ts with
  | nil => exact .inr rfl
  | cons t ts =>
      rw [if_neg (by simp)]
      dsimp only
      rcases (tracks _ source.length depth).expression (t :: ts) 0 h with ⟨hno, hread⟩ | hread
      · rw [run_bind_error hread]
        exact .inl ⟨Nat.not_lt.mp hno, rfl⟩
      · refine .inr ?_
        cases hr : ExprParser.expression source.length (t :: ts) with
        | error fault =>
            rw [hr] at hread
            rw [run_bind_error hread]
            rfl
        | ok p =>
            rw [hr] at hread
            obtain ⟨e, rest, hlt⟩ := p
            obtain ⟨j, hj, hread⟩ := hread
            rw [run_bind_ok hread, run_bind_ok (run_current hj)]
            cases rest with
            | nil => rfl
            | cons u us =>
                rw [if_neg (by simp), run_complain hj]
                rfl

/-- The parser over an index gives what the parser over the tokens left gives, unless its calls nest
too deep; to a depth that grows with the text they do not. -/
theorem parse_follows (depth : Nat) (source : List Char) :
    (depth < 16 * (source.length + 1) ∧ parse depth source = .error .tooDeep) ∨
      parse depth source = (ExprParser.parse source).mapError .refused := by
  cases hts : Lexer.tokens source with
  | error e =>
      rw [parse, Lexer.marked, ExprParser.parse, Lexer.scan_of_tokens_eq_error hts]
      exact .inr rfl
  | ok ts =>
      have hlength := (Lexer.tokens_eq_ok_iff.mp hts).length_le
      rcases parse_of_tokens hts depth with ⟨hdepth, hparse⟩ | hparse
      · exact .inl ⟨by omega, hparse⟩
      · exact .inr hparse

end Cursor

end UiMarkup.ExprParser

/-! ### Places of errors -/

namespace UiMarkup

open Text (utf8Length isBlank)

/-- Where the error of a text stands: at its beginning, at its end, or at a
character that is no blank. -/
structure ExprError.Within (source : List Char) (e : ExprError) : Prop where
  le_length : e.offset ≤ source.length
  place : e.offset = 0 ∨ e.offset = source.length ∨ ∃ c,
      source[e.offset]? = some c ∧ isBlank c = false

/-- The region of a document from the character of a text at an offset to the end of the text, which
begins at the byte `start` and at a line and a column. -/
structure Span.RunsFrom (source : List Char) (offset : Nat) (start line column : Int)
    (span : Span) : Prop where
  start_le : start ≤ span.start
  le_stop : span.start ≤ span.stop
  stop_eq : span.stop = start + utf8Length source
  start_eq : span.start - start = utf8Length (source.take offset)
  line_eq : span.line = line
  column_eq : span.column = column + offset

theorem Span.runsFrom (source : List Char) (offset : Nat) (start line column : Int) :
    RunsFrom source offset start line column
      ⟨start + utf8Length (source.take offset), start + utf8Length source,
        line, column + offset⟩ := by
  have hlength : utf8Length source = utf8Length (source.take offset) +
      utf8Length (source.drop offset) := by
    rw [← Text.utf8Length_append, List.take_append_drop]
  exact ⟨by simp, by simp [hlength], rfl, by simp, rfl, rfl⟩

namespace Binding

open ExprParser (Cursor)

/-- The parser looks up no token outside of its list, however deep its calls may nest, and it is the
parser over the tokens left where they may nest as deep as they have to. What this one complains
about stands within the text, and where the text stands in a document the region of the complaint
begins at that character and ends with the text. -/
theorem parse_within (source : List Char) :
    (∀ depth index, Cursor.parse depth source ≠ .error (.outside index)) ∧
      (∀ depth, 16 * (source.length + 1) ≤ depth →
        Cursor.parse depth source = (ExprParser.parse source).mapError .refused) ∧
      ∀ e, ExprParser.parse source = .error (.malformed e) → e.Within source ∧
        ∀ start line column : Int, ∃ span,
          parse source start line column = .error (.malformed e span) ∧
          span.RunsFrom source e.offset start line column := by
  refine ⟨fun depth index hindex => ?_, fun depth hdepth => ?_, fun e he =>
    ⟨?_, fun start line column => ?_⟩⟩
  · rcases Cursor.parse_follows depth source with ⟨-, hdeep⟩ | hparse
    · rw [hdeep] at hindex
      cases hindex
    · rw [hparse] at hindex
      cases hread : ExprParser.parse source <;> simp [hread, Except.mapError] at hindex
  · exact (Cursor.parse_follows depth source).resolve_left fun hdeep =>
      Nat.not_lt.mpr hdepth hdeep.1
  · exact ⟨ExprParser.offset_le_length he, ExprParser.parse_malformed he⟩
  · exact ⟨_, by rw [parse, he], Span.runsFrom source e.offset start line column⟩

set_option maxRecDepth 4000 in
/-- The parenthesis behind a string is refused where it stands in the document, with one byte more
than characters before it. -/
theorem parse_within_accented :
    ExprParser.parse "'é' )".toList = .error (.malformed ⟨.missing .endOfInput (some ")"), 4⟩) ∧
      Cursor.parse 96 "'é' )".toList =
        .error (.refused (.malformed ⟨.missing .endOfInput (some ")"), 4⟩)) ∧
      parse "'é' )".toList 10 2 7 =
        .error (.malformed ⟨.missing .endOfInput (some ")"), 4⟩ ⟨15, 16, 2, 11⟩) := by
  have he : ExprParser.parse "'é' )".toList =
      .error (.malformed ⟨.missing .endOfInput (some ")"), 4⟩) := by
    decide +kernel
  have hcursor := (parse_within "'é' )".toList).2.1 96 (by decide)
  rw [he] at hcursor
  obtain ⟨⟨start, stop, line, column⟩, hspan, hruns⟩ :=
    ((parse_within "'é' )".toList).2.2 _ he).2 10 2 7
  have hstart : start - 10 = 5 := hruns.start_eq
  obtain rfl : start = 15 := by omega
  obtain rfl : stop = 16 := hruns.stop_eq
  obtain rfl : line = 2 := hruns.line_eq
  obtain rfl : column = 11 := hruns.column_eq
  exact ⟨he, hcursor, hspan⟩

end Binding

end UiMarkup
