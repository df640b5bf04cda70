import UiMarkup.Proofs.Xml.Prolog

/-!
Entities come out of the document type only: where none is written, nothing is declared.
-/

namespace UiMarkup.Xml

/-- What begins a document type. -/
def doctypeOpen : List Char := ['<', '!', 'D', 'O', 'C', 'T', 'Y', 'P', 'E']

namespace PrologToken

variable {e : Ending}

/-- A keyword is what is read of it, behind what was read before. -/
theorem keyword_eq_ok {sofar cs : List Cell} {t : Taken String cs.length}
    (h : keyword e sofar cs = .ok t) :
    ∃ word, word <+: cs ∧ t.value = String.ofList (textOf (sofar.reverse ++ word)) := by
  fun_induction keyword e sofar cs with
  | case2 sofar c cs =>
      rename_i ih
      obtain ⟨t, ht, rfl⟩ := map_eq_ok_iff.mp h
      obtain ⟨word, hword, hvalue⟩ := ih ht
      exact ⟨c :: word, List.cons_prefix_cons.mpr ⟨rfl, hword⟩,
        by simpa [Taken.behind, Taken.widen] using hvalue⟩
  | case4 | case6 | case8 =>
      obtain rfl := Except.ok.inj h
      exact ⟨[], List.nil_prefix, by rw [List.append_nil]; rfl⟩
  | _ => cases h

theorem markupDeclaration_eq_ok {cs : List Cell} {t : Taken PrologToken cs.length}
    (h : markupDeclaration e cs = .ok t) {word : String} (hword : t.value = .declarationOpen word) :
    word.toList <+: textOf cs := by
  unfold markupDeclaration at h
  split at h
  · obtain ⟨body, -, h⟩ := bind_eq_ok_iff.mp h
    obtain rfl := Except.ok.inj h
    cases hword
  · obtain rfl := Except.ok.inj h
    cases hword
  · obtain ⟨found, hfound, h⟩ := bind_eq_ok_iff.mp h
    obtain rfl := Except.ok.inj h
    obtain ⟨own, hown, hvalue⟩ := keyword_eq_ok hfound
    cases hword
    rw [hvalue, String.toList_ofList]
    exact hown.map Cell.char

theorem afterAngle_eq_declarationOpen {cs : List Cell} {t : Taken PrologToken cs.length}
    (h : afterAngle e cs = .ok (some t)) {word : String} (hword : t.value = .declarationOpen word) :
    '!' :: word.toList <+: textOf cs := by
  unfold afterAngle at h
  split at h
  · split at h <;> cases h
  · next c cs =>
    split at h
    · next hc =>
      obtain ⟨t', ht, h⟩ := map_eq_ok_iff.mp h
      obtain rfl := Option.some.inj h
      exact List.cons_prefix_cons.mpr ⟨hc.symm, markupDeclaration_eq_ok ht hword⟩
    · split at h
      · obtain ⟨i, -, h⟩ := bind_eq_ok_iff.mp h
        obtain rfl := Option.some.inj (Except.ok.inj h)
        change (if i.value.isDeclaration then declaration else instruction) = _ at hword
        split at hword <;> cases hword
      · split at h <;> cases h

/-- The readers of all other tokens. -/
def IsPlain {n : Nat} (x : Except Stop (Taken PrologToken n)) : Prop :=
  ∀ t, x = .ok t → ∀ word, t.value ≠ .declarationOpen word

theorem IsPlain.ok {n : Nat} {t : Taken PrologToken n}
    (h : ∀ word, t.value ≠ .declarationOpen word) : IsPlain (.ok t) := by
  intro t' ht
  cases ht
  exact h

theorem IsPlain.error {n : Nat} (stop : Stop) :
    IsPlain (.error stop : Except Stop (Taken PrologToken n)) := by
  intro t ht
  cases ht

theorem IsPlain.atEnd {n : Nat} {stop : Stop} {t : Taken PrologToken n}
    (h : ∀ word, t.value ≠ .declarationOpen word) : IsPlain (PrologToken.atEnd stop t) := by
  rw [PrologToken.atEnd]
  split
  · exact .ok h
  · exact .error _

theorem isPlain_afterPercent (cs : List Cell) : IsPlain (afterPercent e cs) := by
  unfold afterPercent
  split
  · exact .error _
  · split
    · exact .ok (by rintro _ ⟨⟩)
    · intro t h
      obtain ⟨n, -, h⟩ := bind_eq_ok_iff.mp h
      split at h
      · cases h
      · split at h
        · cases h
          simp
        · cases h

theorem isPlain_afterHash (cs : List Cell) : IsPlain (afterHash e cs) := by
  intro t h
  obtain ⟨n, -, h⟩ := bind_eq_ok_iff.mp h
  dsimp only at h
  split at h
  · exact IsPlain.atEnd (by rintro _ ⟨⟩) t h
  · split at h
    · cases h
      simp
    · cases h

theorem isPlain_afterParen (cs : List Cell) : IsPlain (afterParen e cs) := by
  unfold afterParen
  split
  · exact .atEnd (by rintro _ ⟨⟩)
  · split
    · exact .ok (by rintro _ ⟨⟩)
    · split
      · exact .ok (by rintro _ ⟨⟩)
      · exact .error _

theorem isPlain_afterBracket (cs : List Cell) : IsPlain (afterBracket e cs) := by
  unfold afterBracket
  split
  · exact .ok (by rintro _ ⟨⟩)
  · split
    · exact .error _
    · exact .ok (by rintro _ ⟨⟩)
  · exact .ok (by rintro _ ⟨⟩)

theorem isPlain_nameOrWord (c : Cell) (cs : List Cell) : IsPlain (nameOrWord e c cs) := by
  have htoken (text word : String) :
      (if c.startsName then name text none else PrologToken.word) ≠ .declarationOpen word := by
    intro htoken
    split at htoken <;> cases htoken
  unfold nameOrWord
  dsimp only
  split
  · exact .atEnd (htoken _)
  · split
    · exact .ok (htoken _)
    · split
      · exact .ok (by rintro _ ⟨⟩)
      · exact .error _

theorem first_eq_declarationOpen {c : Cell} {cs : List Cell} {t : Taken PrologToken cs.length}
    (h : first e c cs = .ok (some t)) {word : String} (hword : t.value = .declarationOpen word) :
    '<' :: '!' :: word.toList <+: textOf (c :: cs) := by
  have hplain {x : Except Stop (Taken PrologToken cs.length)} (hx : IsPlain x)
      (h : x.map some = .ok (some t)) : '<' :: '!' :: word.toList <+: textOf (c :: cs) := by
    obtain ⟨t', ht', h⟩ := map_eq_ok_iff.mp h
    cases h
    exact (hx t ht' word hword).elim
  have hliteral {quote : Char}
      (h : ((literalUntil e quote cs).map fun t => some ⟨.literal t.value none, t.rest, t.le⟩) =
      .ok (some t)) : '<' :: '!' :: word.toList <+: textOf (c :: cs) := by
    obtain ⟨t', -, h⟩ := map_eq_ok_iff.mp h
    cases h
    cases hword
  unfold first at h
  dsimp only at h
  split at h
  · next hc => exact List.cons_prefix_cons.mpr ⟨hc.symm, afterAngle_eq_declarationOpen h hword⟩
  · exact hliteral h
  · exact hliteral h
  · exact hplain (isPlain_afterPercent cs) h
  · exact hplain (isPlain_afterHash cs) h
  · exact hplain (isPlain_afterParen cs) h
  · exact hplain (isPlain_afterBracket cs) h
  iterate 5
    · cases h
      cases hword
  · split at h
    · exact hplain (isPlain_nameOrWord c cs) h
    · cases h

theorem ne_declarationOpen_of_withHalf? {t token : PrologToken} {half : Nat}
    (h : t.withHalf? half = some token) (word : String) :
    token ≠ .declarationOpen word := by
  unfold withHalf? at h
  split at h <;> cases h <;> exact PrologToken.noConfusion

end PrologToken

/-- A declaration is written as its keyword behind the signs that begin one. -/
theorem infix_of_prologTokens {e : Ending} {cs : List Cell} {word : String} {offset : Nat}
    (h : (.declarationOpen word, offset) ∈ (prologTokens e cs).1) :
    '<' :: '!' :: word.toList <:+: textOf cs := by
  fun_induction prologTokens e cs with
  | case1 | case2 | case3 | case4 | case6 | case7 => cases h
  | case5 c cs _ ih => exact (ih h).trans (List.suffix_cons c.char _).isInfix
  | case8 c cs _ t _ _ token htoken =>
      have hsame := (Prod.ext_iff.mp (List.mem_singleton.mp h)).1
      obtain ⟨half, -, htoken⟩ := Option.bind_eq_some_iff.mp htoken
      exact absurd hsame.symm (PrologToken.ne_declarationOpen_of_withHalf? htoken word)
  | case9 c cs _ t hfirst more ending hmore _ ih =>
      rw [hmore] at ih
      obtain h | h := List.mem_cons.mp h
      · exact (PrologToken.first_eq_declarationOpen hfirst (Prod.ext_iff.mp h).1.symm).isInfix
      · have hrest := (PrologToken.first_eq_ok e hfirst).2 t rfl
        have hall : textOf t.rest <:+ textOf (c :: cs) :=
          (hrest.trans (List.suffix_cons c cs)).map Cell.char
        exact (ih h).trans hall.isInfix

namespace Place

variable {d d' : Doctype} {withDoctype : Bool}

/-- Outside the document type, only its beginning counts. -/
theorem step_prolog {t : PrologToken} {offset : Nat} {next : Place}
    (h : step d (.prolog withDoctype) t offset = .ok (next, d'))
    (hne : t ≠ .declarationOpen "DOCTYPE") :
    next = .prolog withDoctype ∧ d' = d := by
  cases t with
  | instruction | comment =>
      cases h
      exact ⟨rfl, rfl⟩
  | declarationOpen word =>
      -- The branch of a document type is passed over by `hne`, which `simp` finds itself.
      simp [step, plain] at h
  | _ => cases h

theorem run_prolog {place : Place} {tokens : List (PrologToken × Nat)}
    (h : run d (.prolog withDoctype) tokens = .ok (place, d'))
    (hnone : ∀ p ∈ tokens, p.1 ≠ .declarationOpen "DOCTYPE") : d' = d := by
  induction tokens with
  | nil =>
      cases h
      rfl
  | cons p tokens ih =>
      obtain ⟨hp, htokens⟩ := List.forall_mem_cons.mp hnone
      obtain ⟨⟨next, declared⟩, hstep, hrun⟩ := bind_eq_ok_iff.mp h
      obtain ⟨rfl, rfl⟩ := step_prolog hstep hp
      exact ih hrun htokens

end Place

/-- A document without a document type declares nothing. -/
theorem eq_of_readProlog {d d' : Doctype} {input : Input} {cells : List Cell}
    (h : readProlog d input = .ok (d', cells)) (hnone : ¬ doctypeOpen <:+: textOf input.cells) :
    d' = d := by
  unfold readProlog at h
  obtain ⟨⟨place, declared⟩, hrun, h⟩ := bind_eq_ok_iff.mp h
  have hdeclared : declared = d := by
    refine Place.run_prolog hrun fun p hp hdoctype => hnone ?_
    obtain ⟨_, offset⟩ := p
    obtain rfl : _ = PrologToken.declarationOpen "DOCTYPE" := hdoctype
    exact infix_of_prologTokens hp
  dsimp only at h
  split at h
  · cases h
    exact hdeclared
  all_goals cases h

end UiMarkup.Xml
