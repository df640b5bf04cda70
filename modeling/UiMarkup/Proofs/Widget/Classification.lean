import UiMarkup.Proofs.Widget.Segments

/-!
What the segments of a value make of it. The first group that is no expression is the error of the
value; without one, the parts of the value are its segments.
-/

namespace UiMarkup

/-- All numbers among the tokens of a text have a value. -/
def ExprParser.NumbersConvert (text : List Char) : Prop :=
  ∀ ts, Lexer.tokens text = .ok ts → ∀ t ∈ ts, t.lexeme.Convertible

theorem ExprParser.parse_eq_ok_or_malformed {text : List Char} (h : NumbersConvert text) :
    (∃ e, parse text = .ok e) ∨ ∃ err, parse text = .error (.malformed err) := by
  cases hp : parse text with
  | ok e => exact .inl ⟨e, rfl⟩
  | error fault =>
      refine .inr ?_
      cases hts : Lexer.tokens text with
      | error err =>
          rw [parse, Lexer.scan_of_tokens_eq_error hts] at hp
          cases hp
          exact ⟨err, rfl⟩
      | ok ts =>
          obtain ⟨err, rfl⟩ := parse_eq_malformed hts (h ts hts) hp
          exact ⟨err, rfl⟩

namespace ValuePlace

variable (p : ValuePlace) (before : List Char) {text : List Char}

/-- An expression is bound wherever it stands. -/
theorem bind_eq_ok_of_parse {e : Expr} (h : ExprParser.parse text = .ok e) :
    ∃ b, p.bind before text = .ok b ∧ b.expr = e := by
  simp only [bind, Binding.parse, h]
  exact ⟨_, rfl, rfl⟩

theorem bind_eq_error_of_parse {err : ExprError}
    (h : ExprParser.parse text = .error (.malformed err)) :
    ∃ span, p.bind before text = .error (.malformed err span) := by
  simp only [bind, Binding.parse, h]
  exact ⟨_, rfl⟩

variable {p before}

theorem parse_of_bind_eq_ok {b : Binding} (h : p.bind before text = .ok b) :
    ExprParser.parse text = .ok b.expr := by
  simp only [bind, Binding.parse] at h
  split at h
  · cases h
    assumption
  · cases h
  · cases h

end ValuePlace

namespace Segment

/-- The part of a value that a segment is read as. -/
inductive Denotes : Segment → ValuePart → Prop
  | literal (text : List Char) : Denotes (.literal text) (.text (String.ofList text))
  | group {inner : List Char} {b : Binding} :
      ExprParser.parse inner = .ok b.expr → Denotes (.group inner) (.binding b)

/-- The segment with nothing between its braces. -/
def skeleton : Segment → List Char
  | .literal text => text
  | .group _ => ['\x7b', '\x7d']

theorem Denotes.skeleton_eq {s : Segment} {part : ValuePart} (h : Denotes s part) :
    part.skeleton = String.ofList s.skeleton := by
  cases h <;> rfl

theorem join_skeleton {segments : List Segment} {parts : List ValuePart}
    (h : List.Forall₂ Denotes segments parts) :
    String.join (parts.map ValuePart.skeleton) = String.ofList (segments.flatMap skeleton) := by
  induction h with
  | nil => rfl
  | cons hs _ ih => simp [String.join_cons, ih, hs.skeleton_eq, String.ofList_append]

end Segment

namespace AttributeValue

open Segment (Denotes)

variable {p : ValuePlace} {before : List Char} {segments : List Segment}

theorem partsOf_literal (text : List Char) (more : List Segment) :
    partsOf p before (.literal text :: more) =
      (partsOf p (before ++ text) more).map (.text (String.ofList text) :: ·) := by
  rw [partsOf]
  cases partsOf p (before ++ text) more <;> rfl

theorem partsOf_group (inner : List Char) (more : List Segment) :
    partsOf p before (.group inner :: more) =
      match p.bind (before ++ ['\x7b']) inner with
      | .error f => .error (faultOf f)
      | .ok b =>
          (partsOf p (before ++ (Segment.group inner).source) more).map (.binding b :: ·) := by
  rw [partsOf]
  cases p.bind (before ++ ['\x7b']) inner with
  | error f => rfl
  | ok b => cases partsOf p (before ++ (Segment.group inner).source) more <;> rfl

theorem denotes_of_partsOf {parts : List ValuePart} (h : partsOf p before segments = .ok parts) :
    List.Forall₂ Denotes segments parts := by
  induction segments generalizing before parts with
  | nil =>
      cases h
      exact .nil
  | cons s more ih =>
      cases s with
      | literal text =>
          rw [partsOf_literal] at h
          cases hrest : partsOf p (before ++ text) more with
          | error f => simp [hrest, Except.map] at h
          | ok rest =>
              obtain rfl : .text (String.ofList text) :: rest = parts := by
                simpa [hrest, Except.map] using h
              exact .cons (.literal text) (ih hrest)
      | group inner =>
          rw [partsOf_group] at h
          split at h
          · cases h
          · rename_i b hb
            cases hrest : partsOf p (before ++ (Segment.group inner).source) more with
            | error f => simp [hrest, Except.map] at h
            | ok rest =>
                obtain rfl : .binding b :: rest = parts := by simpa [hrest, Except.map] using h
                exact .cons (.group (ValuePlace.parse_of_bind_eq_ok hb)) (ih hrest)

/-- An error is that of the leftmost group that is refused. -/
theorem partsOf_error {fault : ReadFault} (h : partsOf p before segments = .error fault) :
    ∃ (a : List Segment) (inner : List Char) (b : List Segment) (f : Binding.Fault),
      segments = a ++ .group inner :: b ∧
      (∀ other, .group other ∈ a → ∃ e, ExprParser.parse other = .ok e) ∧
      p.bind (before ++ a.flatMap Segment.source ++ ['\x7b']) inner = .error f ∧
      fault = faultOf f := by
  induction segments generalizing before with
  | nil => cases h
  | cons s more ih =>
      cases s with
      | literal text =>
          rw [partsOf_literal] at h
          cases hrest : partsOf p (before ++ text) more with
          | ok rest => simp [hrest, Except.map] at h
          | error f' =>
              obtain rfl : f' = fault := by simpa [hrest, Except.map] using h
              obtain ⟨a, inner, b, f, rfl, ha, hbind, hf⟩ := ih hrest
              refine ⟨.literal text :: a, inner, b, f, rfl, by simpa using ha, ?_, hf⟩
              simpa [Segment.source] using hbind
      | group inner =>
          rw [partsOf_group] at h
          split at h
          · rename_i f hf
            cases h
            exact ⟨[], inner, more, f, rfl, by simp, by simpa using hf, rfl⟩
          · rename_i b hb
            cases hrest : partsOf p (before ++ (Segment.group inner).source) more with
            | ok rest => simp [hrest, Except.map] at h
            | error f' =>
                obtain rfl : f' = fault := by simpa [hrest, Except.map] using h
                obtain ⟨a, other, c, f, rfl, ha, hbind, hf⟩ := ih hrest
                refine ⟨.group inner :: a, other, c, f, rfl, ?_, by simpa using hbind, hf⟩
                rintro t (_ | ⟨_, ht⟩)
                · exact ⟨b.expr, ValuePlace.parse_of_bind_eq_ok hb⟩
                · exact ha t ht

theorem partsOf_eq_error {a b : List Segment} {inner : List Char} {f : Binding.Fault}
    (ha : ∀ other, .group other ∈ a → ∃ e, ExprParser.parse other = .ok e)
    (hf : p.bind (before ++ a.flatMap Segment.source ++ ['\x7b']) inner = .error f) :
    partsOf p before (a ++ .group inner :: b) = .error (faultOf f) := by
  induction a generalizing before with
  | nil =>
      rw [List.flatMap_nil, List.append_nil] at hf
      rw [List.nil_append, partsOf_group, hf]
  | cons s a ih =>
      have hmore := fun other h => ha other (List.mem_cons_of_mem s h)
      rw [List.flatMap_cons, ← List.append_assoc] at hf
      cases s with
      | literal text =>
          have hrest : partsOf p (before ++ text) (a ++ .group inner :: b) = .error (faultOf f) :=
            ih hmore hf
          rw [List.cons_append, partsOf_literal, hrest, Except.map]
      | group other =>
          obtain ⟨e, he⟩ := ha other (by simp)
          obtain ⟨bound, hbound, -⟩ := p.bind_eq_ok_of_parse (before ++ ['\x7b']) he
          rw [List.cons_append, partsOf_group, hbound]
          dsimp only
          rw [ih hmore hf, Except.map]

theorem exists_partsOf_eq_ok (p : ValuePlace) (before : List Char)
    (h : ∀ inner, .group inner ∈ segments → ∃ e, ExprParser.parse inner = .ok e) :
    ∃ parts, partsOf p before segments = .ok parts ∧ List.Forall₂ Denotes segments parts := by
  cases hparts : partsOf p before segments with
  | ok parts => exact ⟨parts, rfl, denotes_of_partsOf hparts⟩
  | error fault =>
      obtain ⟨a, inner, b, f, rfl, -, hbind, -⟩ := partsOf_error hparts
      obtain ⟨e, he⟩ := h inner (by simp)
      obtain ⟨bound, hbound, -⟩ :=
        p.bind_eq_ok_of_parse (before ++ a.flatMap Segment.source ++ ['\x7b']) he
      rw [hbound] at hbind
      cases hbind

/-- Without a group, all of a value is one text. -/
theorem ofParts_of_no_group {parts : List ValuePart} (h : Segment.Canonical segments)
    (hparts : List.Forall₂ Denotes segments parts) (hnone : ∀ inner, .group inner ∉ segments) :
    ofParts parts = .static (String.ofList (segments.flatMap Segment.source)) := by
  match segments, parts, hparts with
  | [], [], .nil => rfl
  | [.literal text], [_], .cons (.literal _) .nil => simp [ofParts, Segment.source]
  | .group inner :: _, _, _ => exact absurd (by simp) (hnone inner)
  | .literal _ :: .group inner :: _, _, _ => exact absurd (by simp) (hnone inner)
  | .literal text :: .literal text' :: more, _, _ => exact absurd rfl (h.apart [] text text' more)

/-- A value that is not just one group has several parts, and they stay together. -/
theorem ofParts_of_group {parts : List ValuePart} {inner : List Char}
    (hparts : List.Forall₂ Denotes segments parts) (hgroup : .group inner ∈ segments)
    (hne : segments ≠ [.group inner]) : ofParts parts = .interpolated parts ∧ 2 ≤ parts.length := by
  match segments, parts, hparts with
  | [s], [part], .cons _ .nil =>
    obtain rfl : Segment.group inner = s := by simpa using hgroup
    exact absurd rfl hne
  | _ :: _ :: _, _ :: _ :: _, .cons _ (.cons _ _) => exact ⟨by simp [ofParts], by simp⟩

theorem classify_eq (value : String) (h : Segment.Canonical segments)
    (hsource : segments.flatMap Segment.source = value.toList) :
    classify p value = (partsOf p [] segments).map ofParts := by
  rw [classify, ← hsource, Segment.split_source h]
  cases partsOf p [] segments <;> rfl

theorem classify_eq_error_iff (p : ValuePlace) {value : String} (h : Segment.Canonical segments)
    (hsource : segments.flatMap Segment.source = value.toList)
    (hnumbers : ∀ inner, .group inner ∈ segments → ExprParser.NumbersConvert inner)
    (fault : ReadFault) :
    classify p value = .error fault ↔
      ∃ (a : List Segment) (inner : List Char) (b : List Segment) (err :
        ExprError) (e : ParseError),
        segments = a ++ .group inner :: b ∧
        (∀ other, .group other ∈ a → ∃ e, ExprParser.parse other = .ok e) ∧
        ExprParser.parse inner = .error (.malformed err) ∧
        fault = .parse e ∧ e.problem = .expression err.problem ∧
        e.problem.kind = .invalidExpression ∧
        p.bind (a.flatMap Segment.source ++ ['\x7b']) inner = .error (.malformed err e.span) := by
  rw [classify_eq value h hsource]
  constructor
  · intro herror
    cases hparts : partsOf p [] segments with
    | ok parts => simp [hparts, Except.map] at herror
    | error fault' =>
        obtain rfl : fault' = fault := by simpa [hparts, Except.map] using herror
        obtain ⟨a, inner, b, f, rfl, ha, hbind, rfl⟩ := partsOf_error hparts
        obtain ⟨e, he⟩ | ⟨err, herr⟩ :=
          ExprParser.parse_eq_ok_or_malformed (hnumbers inner (by simp))
        · obtain ⟨bound, hbound, -⟩ := p.bind_eq_ok_of_parse _ he
          rw [hbound] at hbind
          cases hbind
        · obtain ⟨span, hspan⟩ := p.bind_eq_error_of_parse _ herr
          rw [hspan] at hbind
          cases hbind
          exact ⟨a, inner, b, err, ⟨_, span⟩, rfl, ha, herr, rfl, rfl, rfl, hspan⟩
  · rintro ⟨a, inner, b, err, ⟨problem, span⟩, rfl, ha, -, rfl, rfl, -, hbind⟩
    have hparts : partsOf p [] (a ++ .group inner :: b) = .error (faultOf (.malformed err span)) :=
      partsOf_eq_error ha hbind
    rw [hparts]
    rfl

/-- A value has one canonical list of segments. It is refused when one of its groups is no
expression, for the leftmost such group. Else it is a text if it has no group, an expression if it
is a group, and otherwise its parts are its segments, with expressions for the groups. -/
theorem classify_canonicalSegments (p : ValuePlace) (value : String) :
    (∃! segments, Segment.Canonical segments ∧ segments.flatMap Segment.source = value.toList) ∧
      ∀ segments, Segment.Canonical segments → segments.flatMap Segment.source = value.toList →
        (∀ inner, .group inner ∈ segments → ExprParser.NumbersConvert inner) →
        (∀ fault, classify p value = .error fault ↔
          ∃ (a : List Segment) (inner : List Char) (b : List Segment) (err :
            ExprError) (e : ParseError),
        segments = a ++ .group inner :: b ∧
            (∀ other, .group other ∈ a → ∃ e, ExprParser.parse other = .ok e) ∧
            ExprParser.parse inner = .error (.malformed err) ∧
            fault = .parse e ∧ e.problem = .expression err.problem ∧
            e.problem.kind = .invalidExpression ∧
            p.bind (a.flatMap Segment.source ++ ['\x7b']) inner = .error (.malformed err e.span)) ∧
        ((∀ inner, .group inner ∈ segments → ∃ e, ExprParser.parse inner = .ok e) →
          ((∀ inner, .group inner ∉ segments) → classify p value = .ok (.static value)) ∧
          (∀ inner, segments = [.group inner] →
            ∃ b, ExprParser.parse inner = .ok b.expr ∧ classify p value = .ok (.binding b)) ∧
          ∀ inner, .group inner ∈ segments → segments ≠ [.group inner] →
            ∃ parts, classify p value = .ok (.interpolated parts) ∧ 2 ≤ parts.length ∧
              List.Forall₂ Denotes segments parts ∧
              String.join (parts.map ValuePart.skeleton) =
                String.ofList (segments.flatMap Segment.skeleton)) := by
  refine ⟨Segment.existsUnique_canonical value.toList, fun segments h hsource hnumbers => ?_⟩
  refine ⟨classify_eq_error_iff p h hsource hnumbers, fun hall => ?_⟩
  obtain ⟨parts, hok, hparts⟩ := exists_partsOf_eq_ok p [] hall
  have hvalue : classify p value = .ok (ofParts parts) := by
    rw [classify_eq value h hsource, hok, Except.map]
  rw [hvalue]
  refine ⟨fun hnone => ?_, ?_, fun inner hgroup hne => ?_⟩
  · rw [ofParts_of_no_group h hparts hnone, hsource, String.ofList_toList]
  · rintro inner rfl
    match parts, hparts with
    | [_], .cons (.group hparse) .nil => exact ⟨_, hparse, rfl⟩
  · obtain ⟨heq, hlength⟩ := ofParts_of_group hparts hgroup hne
    exact ⟨parts, by rw [heq], hlength, hparts, Segment.join_skeleton hparts⟩

/-- The segments of `a}{b.c} {d`. -/
def unevenBraces : List Segment :=
  [.literal ['a', '\x7d'], .group ['b', '.', 'c'], .literal [' ', '\x7b', 'd']]

theorem canonical_unevenBraces : Segment.Canonical unevenBraces := by
  refine .literal (by decide) (by decide) (.group (by decide) (.single (by decide) ?_))
  rintro ⟨a, b, c, h⟩
  exact absurd (h ▸ by simp : '\x7d' ∈ [' ', '\x7b', 'd']) (by decide)

theorem tokens_path : Lexer.tokens ['b', '.', 'c'] =
    .ok [⟨.name "b", 0, 1⟩, ⟨.symbol .dot, 1, 1⟩, ⟨.name "c", 2, 1⟩] := by
  decide +kernel

theorem parse_path : ExprParser.parse ['b', '.', 'c'] = .ok (.field ["b", "c"]) := by
  decide +kernel

theorem eq_path_of_mem_unevenBraces {inner : List Char} (h : .group inner ∈ unevenBraces) :
    inner = ['b', '.', 'c'] := by
  simpa [unevenBraces] using h

theorem numbersConvert_unevenBraces :
    ∀ inner, .group inner ∈ unevenBraces → ExprParser.NumbersConvert inner := by
  intro inner h ts hts
  obtain rfl := eq_path_of_mem_unevenBraces h
  obtain rfl := Except.ok.inj (tokens_path.symm.trans hts)
  simp [Lexeme.Convertible]

theorem classify_canonicalSegments_unevenBraces :
    Segment.Canonical unevenBraces ∧ unevenBraces.flatMap Segment.source =
      "a\x7d\x7bb.c\x7d \x7bd".toList ∧
      (∀ inner, .group inner ∈ unevenBraces → ExprParser.NumbersConvert inner) ∧
      ∃ parts, classify ⟨.origin, none⟩ "a\x7d\x7bb.c\x7d \x7bd" = .ok (.interpolated parts) ∧
        2 ≤ parts.length ∧ List.Forall₂ Denotes unevenBraces parts ∧
        String.join (parts.map ValuePart.skeleton) = "a\x7d\x7b\x7d \x7bd" := by
  have hsource : unevenBraces.flatMap Segment.source = "a\x7d\x7bb.c\x7d \x7bd".toList := by decide
  refine ⟨canonical_unevenBraces, hsource, numbersConvert_unevenBraces, ?_⟩
  obtain ⟨-, hvalue⟩ := classify_canonicalSegments ⟨.origin, none⟩ "a\x7d\x7bb.c\x7d \x7bd"
  obtain ⟨-, hshape⟩ :=
    hvalue unevenBraces canonical_unevenBraces hsource numbersConvert_unevenBraces
  have hall : ∀ inner, .group inner ∈ unevenBraces → ∃ e, ExprParser.parse inner = .ok e := by
    intro inner h
    obtain rfl := eq_path_of_mem_unevenBraces h
    exact ⟨_, parse_path⟩
  obtain ⟨parts, hparts, hlength, hdenotes, hskeleton⟩ :=
    (hshape hall).2.2 ['b', '.', 'c'] (by simp [unevenBraces]) (by simp [unevenBraces])
  exact ⟨parts, hparts, hlength, hdenotes, hskeleton.trans (by decide)⟩

end AttributeValue
end UiMarkup
