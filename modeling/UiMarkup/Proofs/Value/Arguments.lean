import UiMarkup.Proofs.Number.Margins
import UiMarkup.Text.LowerCase
import UiMarkup.Value.Scalar

/-!
Lists of arguments. Texts in which each parenthesis is closed, and in which no comma stands outside
of them, come back as the arguments of the text that joins them with commas. The arguments of any
text whatever, with commas between them, are that text but for blanks at the commas and at its ends.
What separates arguments and what stands around them, the parentheses, commas and blanks of a text,
is the same in lower case.
-/

namespace UiMarkup

namespace Text

/-! ### Separators and lower case -/

/-- The parentheses, the comma and the blanks. -/
def separators : CodeSet := ⟨(0x28, 0x29) :: (0x2C, 0x2C) :: blanks.ranges⟩

def isSeparator (c : Char) : Bool := separators.contains c

theorem isSeparator_iff {c : Char} :
    isSeparator c = true ↔ c = '(' ∨ c = ')' ∨ c = ',' ∨ isBlank c = true := by
  have hval (d : Char) : c = d ↔ c.toNat = d.toNat := Char.toNat_inj.symm
  have hparens : ('(').toNat = 0x28 ∧ (')').toNat = 0x29 ∧ (',').toNat = 0x2C := by decide
  rw [hval, hval, hval, hparens.1, hparens.2.1, hparens.2.2, isSeparator, isBlank,
    CodeSet.contains_iff, CodeSet.contains_iff, separators, List.exists_mem_cons_iff,
    List.exists_mem_cons_iff]
  constructor
  · rintro (h | h | h)
    · omega
    · omega
    · exact .inr (.inr (.inr h))
  · rintro (h | h | h | h)
    · exact .inl (by omega)
    · exact .inl (by omega)
    · exact .inr (.inl (by omega))
    · exact .inr (.inr h)

theorem isBlank_of_isSeparator {c : Char} (h : isSeparator c = false) : isBlank c = false := by
  rw [Bool.eq_false_iff, Ne, isSeparator_iff] at h
  exact Bool.eq_false_iff.mpr fun hblank => h (.inr (.inr (.inr hblank)))

theorem apart_digits_separators : digits.apart separators := by decide +kernel

theorem isSeparator_of_isDecimal {c : Char} (h : isDecimal c) : isSeparator c = false :=
  CodeSet.contains_of_apart apart_digits_separators (isDigit_eq_contains c ▸ isDigit_of_isDecimal h)

/-- The capitals of a run, and their small forms. -/
def CaseRun.reach (r : CaseRun) : CodeSet :=
  ⟨[(r.first, r.last), ((r.first + r.shift).toNat, (r.last + r.shift).toNat)]⟩

theorem apart_reach_separators : ∀ r ∈ caseRuns, r.reach.apart separators := by decide +kernel

theorem toNat_ofNat_eq_or (n : Nat) : (Char.ofNat n).toNat = n ∨ (Char.ofNat n).toNat = 0 := by
  unfold Char.ofNat
  split
  · exact .inl rfl
  · exact .inr rfl

theorem isSeparator_of_caseRun {r : CaseRun} (hr : r ∈ caseRuns) {c : Char}
    (hfirst : r.first ≤ c.toNat) (hlast : c.toNat ≤ r.last) :
    isSeparator c = false ∧ isSeparator (Char.ofNat (c.toNat + r.shift).toNat) = false := by
  have hapart := apart_reach_separators r hr
  constructor
  · apply CodeSet.contains_of_apart hapart
    exact CodeSet.contains_iff.mpr ⟨_, List.mem_cons_self, hfirst, hlast⟩
  · obtain h | h := toNat_ofNat_eq_or (c.toNat + r.shift).toNat
    · apply CodeSet.contains_of_apart hapart
      refine CodeSet.contains_iff.mpr ⟨_, List.mem_cons_of_mem _ List.mem_cons_self, ?_⟩
      rw [h]
      omega
    · have hzero : Char.ofNat (c.toNat + r.shift).toNat = Char.ofNat 0 :=
        Char.toNat_inj.mp (h.trans rfl)
      rw [hzero]
      decide

theorem filter_lowerChar (c : Char) :
    (lowerChar c).filter isSeparator = [c].filter isSeparator := by
  unfold lowerChar
  split
  · rename_i h
    rw [h]
    decide
  · split
    · rename_i r hfind
      have hin := List.find?_some hfind
      simp only [Bool.and_eq_true, decide_eq_true_eq] at hin
      have ⟨hc, hsmall⟩ := isSeparator_of_caseRun (List.mem_of_find?_eq_some hfind) hin.1.1 hin.1.2
      simp [hc, hsmall]
    · rfl

theorem filter_lowerAfter (before cs : List Char) :
    (lowerAfter before cs).filter isSeparator = cs.filter isSeparator := by
  induction cs generalizing before with
  | nil => rfl
  | cons c cs ih =>
      have hcons : (c :: cs).filter isSeparator = [c].filter isSeparator ++ cs.filter isSeparator :=
        List.filter_append [c] cs
      rw [lowerAfter, List.filter_append, ih, hcons]
      congr 1
      split
      · rename_i hsigma
        -- neither the capital sigma nor one of its small forms is a separator
        rw [hsigma]
        split <;> decide
      · exact filter_lowerChar c

/-- Lower case keeps the blanks, parentheses and commas of a text in their order. -/
theorem filter_lower (cs : List Char) : (lower cs).filter isSeparator = cs.filter isSeparator :=
  filter_lowerAfter [] cs

end Text

namespace Value

open Text

/-! ### Texts that are one argument -/

/-- A text that closes so many parentheses and each that it opens itself, without a comma
where all are closed. -/
inductive Closes : Nat → List Char → Prop
  | done : Closes 0 []
  | opening {depth : Nat} {cs : List Char} (rest : Closes (depth + 1) cs) : Closes depth ('(' :: cs)
  | closing {depth : Nat} {cs : List Char} (rest : Closes depth cs) : Closes (depth + 1) (')' :: cs)
  | plain {depth : Nat} {c : Char} {cs : List Char} (notOpening : c ≠ '(') (notClosing : c ≠ ')')
      (inside : c = ',' → depth ≠ 0) (rest : Closes depth cs) : Closes depth (c :: cs)

theorem foldr_consFirst (cs p : List Char) (ps : List (List Char)) :
    cs.foldr consFirst (p :: ps) = (cs ++ p) :: ps := by
  induction cs with
  | nil => rfl
  | cons c cs ih => rw [List.foldr_cons, ih, consFirst, List.cons_append]

namespace Closes

variable {depth : Nat} {cs ds : List Char}

/-- Such a text is all in the first of the pieces. -/
theorem argumentPieces_append (h : Closes depth cs) (rest : List Char) :
    argumentPieces depth (cs ++ rest) = cs.foldr consFirst (argumentPieces 0 rest) := by
  induction h with
  | done => rfl
  | opening _ ih =>
      rw [List.cons_append, argumentPieces, if_neg (fun h => absurd h.1 (by decide)),
        depthAfter, if_pos rfl]
      exact congrArg (consFirst '(') ih
  | @closing depth _ _ ih =>
      have hdepth : ((depth + 1 : ℕ) : ℤ) - 1 = depth := by omega
      rw [List.cons_append, argumentPieces, if_neg (fun h => absurd h.1 (by decide)), depthAfter,
        if_neg (by decide), if_pos rfl, hdepth]
      exact congrArg (consFirst ')') ih
  | @plain depth c _ notOpening notClosing inside _ ih =>
      have hcut : ¬ (c = ',' ∧ (depth : ℤ) = 0) := fun h => inside h.1 (Int.natCast_eq_zero.mp h.2)
      rw [List.cons_append, argumentPieces, if_neg hcut, depthAfter, if_neg notOpening,
        if_neg notClosing]
      exact congrArg (consFirst c) ih

theorem append (h : Closes depth cs) (h' : Closes 0 ds) : Closes depth (cs ++ ds) := by
  induction h with
  | done => exact h'
  | opening _ ih => exact .opening ih
  | closing _ ih => exact .closing ih
  | plain notOpening notClosing inside _ ih => exact .plain notOpening notClosing inside ih

/-- Commas count only where all parentheses are closed. -/
theorem prepend (h : Closes depth ds) (hcs : ∀ c ∈ cs, c ≠ '(' ∧ c ≠ ')')
    (hcomma : ',' ∈ cs → depth ≠ 0) : Closes depth (cs ++ ds) := by
  induction cs with
  | nil => exact h
  | cons c cs ih =>
      have ⟨hopening, hclosing⟩ := hcs c List.mem_cons_self
      refine .plain hopening hclosing (fun hc => hcomma (hc ▸ List.mem_cons_self)) (ih ?_ ?_)
      · exact fun d hd => hcs d (List.mem_cons_of_mem c hd)
      · exact fun h => hcomma (List.mem_cons_of_mem c h)

end Closes

/-- A text without parentheses and commas. -/
def IsAtom (cs : List Char) : Prop := ∀ c ∈ cs, isSeparator c = true → isBlank c = true

instance (cs : List Char) : Decidable (IsAtom cs) :=
  List.decidableBAll (fun c => isSeparator c = true → isBlank c = true) cs

namespace IsAtom

variable {cs ds : List Char}

theorem append (h : IsAtom cs) (h' : IsAtom ds) : IsAtom (cs ++ ds) := by
  intro c hc
  obtain hc | hc := List.mem_append.mp hc
  · exact h c hc
  · exact h' c hc

theorem of_forall (h : ∀ c ∈ cs, isBlank c = true) : IsAtom cs := fun c hc _ => h c hc

theorem of_isSeparator (h : ∀ c ∈ cs, isSeparator c = false) : IsAtom cs := by
  intro c hc hsep
  rw [h c hc] at hsep
  cases hsep

theorem of_dropSuffix? {suffix : List Char} (h : dropSuffix? suffix cs = some ds)
    (hsuffix : IsAtom suffix) (hds : IsAtom ds) : IsAtom cs := by
  rw [dropSuffix?_eq_some_iff.mp h]
  exact hds.append hsuffix

theorem of_trim (h : IsAtom (trim cs)) : IsAtom cs := by
  obtain ⟨a, b, hcs, ha, hb⟩ := exists_trimBy isBlank cs
  rw [hcs]
  exact (IsAtom.append (of_forall ha) h).append (of_forall hb)

theorem not_mem {c : Char} (h : IsAtom cs) (hsep : isSeparator c = true)
    (hblank : isBlank c = false) : c ∉ cs := by
  intro hc
  rw [h c hc hsep] at hblank
  cases hblank

theorem closes (h : IsAtom cs) : Closes 0 cs := by
  rw [← List.append_nil cs]
  refine Closes.prepend .done (fun c hc => ⟨?_, ?_⟩) fun hc =>
    (h.not_mem (by decide) (by decide) hc).elim
  · rintro rfl
    exact h.not_mem (by decide) (by decide) hc
  · rintro rfl
    exact h.not_mem (by decide) (by decide) hc

end IsAtom

/-- A word without separators, or a call with no parentheses inside. -/
inductive IsWordOrCall : List Char → Prop
  | word {cs : List Char} (plain : ∀ c ∈ cs, isSeparator c = false) : IsWordOrCall cs
  | call {name inner rest : List Char} (plain : ∀ c ∈ name, isSeparator c = false)
      (flat : ∀ c ∈ inner, c ≠ '(' ∧ c ≠ ')') (plainRest : ∀ c ∈ rest, isSeparator c = false) :
      IsWordOrCall (name ++ '(' :: (inner ++ ')' :: rest))

namespace IsWordOrCall

variable {cs ds : List Char}

theorem closes (h : IsWordOrCall cs) : Closes 0 cs := by
  cases h with
  | word plain => exact (IsAtom.of_isSeparator plain).closes
  | call plain flat plainRest =>
      have hrest : Closes 1 (')' :: _) := .closing (IsAtom.of_isSeparator plainRest).closes
      have hinner := hrest.prepend flat fun _ => Nat.one_ne_zero
      exact (IsAtom.of_isSeparator plain).closes.append (.opening hinner)

/-- Which of the two a text is depends on its separators alone. -/
theorem of_filter_eq (h : cs.filter isSeparator = ds.filter isSeparator) (hds : IsWordOrCall ds) :
    IsWordOrCall cs := by
  have hnil {cs : List Char} : cs.filter isSeparator = [] ↔ ∀ c ∈ cs, isSeparator c = false := by
    simp
  cases hds with
  | word plain => exact .word (hnil.mp (h.trans (hnil.mpr plain)))
  | @call name inner rest plain flat plainRest =>
      have hopening : isSeparator '(' = true := by decide
      have hclosing : isSeparator ')' = true := by decide
      rw [List.filter_append, hnil.mpr plain, List.nil_append, List.filter_cons_of_pos hopening,
        List.filter_append, List.filter_cons_of_pos hclosing, hnil.mpr plainRest,
        List.filter_eq_cons_iff] at h
      obtain ⟨name', more, rfl, hname, -, h⟩ := h
      obtain ⟨inner', more', rfl, hinner, h⟩ := List.filter_eq_append_iff.mp h
      obtain ⟨inner'', rest', rfl, hinner', -, h⟩ := List.filter_eq_cons_iff.mp h
      have habsent {d : Char} (hd : isSeparator d = true) (hinside : ∀ c ∈ inner, c ≠ d) :
          d ∉ inner' ++ inner'' := by
        intro hmem
        obtain hmem | hmem := List.mem_append.mp hmem
        · have hfound : d ∈ inner.filter isSeparator := hinner ▸ List.mem_filter.mpr ⟨hmem, hd⟩
          exact hinside d (List.mem_filter.mp hfound).1 rfl
        · exact hinner' d hmem hd
      rw [← List.append_assoc]
      refine .call (by simpa using hname) (fun c hc => ⟨?_, ?_⟩) (hnil.mp h)
      · rintro rfl
        exact habsent hopening (fun c hc => (flat c hc).1) hc
      · rintro rfl
        exact habsent hclosing (fun c hc => (flat c hc).2) hc

end IsWordOrCall

/-! ### The arguments of a call -/

theorem argumentPieces_joinWith {texts : List (List Char)} (hne : texts ≠ [])
    (h : ∀ t ∈ texts, Closes 0 t) : argumentPieces 0 (joinWith [','] texts) = texts := by
  induction texts with
  | nil => exact absurd rfl hne
  | cons t texts ih =>
      have ht := h t List.mem_cons_self
      cases texts with
      | nil =>
          have hpieces := ht.argumentPieces_append []
          rw [List.append_nil] at hpieces
          exact hpieces.trans (foldr_consFirst t [] []) |>.trans (by rw [List.append_nil])
      | cons t' texts =>
          have hcomma (cs : List Char) : argumentPieces 0 (',' :: cs) = [] :: argumentPieces 0 cs :=
            if_pos ⟨rfl, rfl⟩
          have hrest := ih (List.cons_ne_nil _ _) fun u hu => h u (List.mem_cons_of_mem t hu)
          rw [joinWith, List.append_assoc, List.singleton_append]
          refine (ht.argumentPieces_append _).trans ?_
          rw [hcomma, hrest, foldr_consFirst, List.append_nil]
          simp

theorem arguments_joinWith {texts : List (List Char)} (hne : texts ≠ [])
    (h : ∀ t ∈ texts, Closes 0 t) : arguments (joinWith [','] texts) = texts.map trim := by
  rw [arguments, argumentPieces_joinWith hne h]

/-- The small letters and the hyphen. -/
def functionChars : CodeSet := ⟨[(0x2D, 0x2D), (0x61, 0x7A)]⟩

theorem isSeparator_of_isFunctionChar {c : Char} (h : isFunctionChar c = true) :
    isSeparator c = false := by
  have hin : functionChars.contains c = true := by
    simp only [isFunctionChar, Bool.or_eq_true, Bool.and_eq_true, decide_eq_true_eq, beq_iff_eq,
      Char.le_def, UInt32.le_iff_toNat_le] at h
    simp only [CodeSet.contains_iff, functionChars, List.exists_mem_cons_iff, List.not_mem_nil]
    obtain h | rfl := h
    · exact .inr (.inl h)
    · exact .inl (by decide)
  exact CodeSet.contains_of_apart (by decide) hin

theorem isFunctionName_iff {name : List Char} :
    (!name.isEmpty && name.all isFunctionChar) = true ↔
    name ≠ [] ∧ ∀ c ∈ name, isFunctionChar c = true := by
  simp

theorem functionCall?_eq_some_iff {text name inner : List Char} :
    functionCall? text = some (name, inner) ↔
      text = name ++ '(' :: (inner ++ [')']) ∧ name ≠ [] ∧ ∀ c ∈ name, isFunctionChar c = true := by
  constructor
  · intro h
    obtain ⟨⟨n, rest⟩, hcut, h⟩ := Option.bind_eq_some_iff.mp h
    obtain ⟨i, hdrop, h⟩ := Option.bind_eq_some_iff.mp h
    split at h
    · rename_i hn
      cases h
      exact ⟨dropSuffix?_eq_some_iff.mp hdrop ▸ (eq_append_of_cut? hcut).1,
        isFunctionName_iff.mp hn⟩
    · cases h
  · rintro ⟨rfl, hn⟩
    have hcut : '(' ∉ name := fun hmem => absurd (hn.2 _ hmem) (by decide)
    rw [functionCall?, cut?_append hcut]
    refine Option.bind_eq_some_iff.mpr ⟨(name, inner ++ [')']), rfl, ?_⟩
    refine Option.bind_eq_some_iff.mpr ⟨inner, dropSuffix?_eq_some_iff.mpr rfl, ?_⟩
    exact if_pos (isFunctionName_iff.mpr hn)

/-! ### Numbers -/

theorem isSeparator_of_isNumberChar {c : Char} (h : Number.IsNumberChar (Number.plainDigit c)) :
    isSeparator c = false := by
  by_contra hsep
  obtain rfl | rfl | rfl | hblank := isSeparator_iff.mp (Bool.eq_true_of_not_eq_false hsep)
  · exact absurd h (by unfold Number.IsNumberChar; decide)
  · exact absurd h (by unfold Number.IsNumberChar; decide)
  · exact absurd h (by unfold Number.IsNumberChar; decide)
  · rw [Number.isBlank_of_plainDigit (Number.isBlank_of_isNumberChar h)] at hblank
    cases hblank

theorem isAtom_of_number {what : String} {text : List Char} {x : Float}
    (h : number what text = .ok x) : IsAtom text := by
  obtain ⟨y, hread⟩ : ∃ y, Number.readFloat? (trim text) = some y := by
    rw [number] at h
    split at h
    · exact ⟨_, by assumption⟩
    · cases h
  obtain ⟨a, b, htrim, ha, hb⟩ := exists_trimBy Number.isMargin (trim text)
  have hcore : IsAtom (trimBy Number.isMargin (trim text)) :=
    .of_isSeparator fun c hc =>
      isSeparator_of_isNumberChar (Number.isNumberChar_of_readFloat? hread c hc)
  apply IsAtom.of_trim
  rw [htrim]
  refine (IsAtom.append (.of_forall fun c hc => ?_) hcore).append (.of_forall fun c hc => ?_)
  · exact Number.isBlank_of_isMargin (ha c hc)
  · exact Number.isBlank_of_isMargin (hb c hc)

/-! ### Arguments that are joined -/

/-- The texts with a comma between each two of them. Blanks may stand around the commas. -/
inductive CommaList : List (List Char) → List Char → Prop
  | last (t : List Char) : CommaList [t] t
  | more {t a b cs : List Char} {ts : List (List Char)} (before : ∀ c ∈ a, isBlank c)
      (after : ∀ c ∈ b, isBlank c) (rest : CommaList ts cs) :
      CommaList (t :: ts) (t ++ a ++ ',' :: (b ++ cs))

/-- A trimmed text whose parentheses are balanced, with commas only inside of them. -/
structure IsArgument (t : List Char) : Prop where
  trimmed : trim t = t
  opened : ∀ p : List Char, p <+: t → p.count ')' ≤ p.count '('
  closed : t.count ')' = t.count '('
  inside : ∀ p : List Char, p ++ [','] <+: t → p.count ')' < p.count '('

instance (t : List Char) : Decidable (IsArgument t) :=
  decidable_of_iff
    (trim t = t ∧ t.count ')' = t.count '(' ∧
      ∀ p ∈ t.inits, p.count ')' ≤ p.count '(' ∧ (p ++ [','] <+: t → p.count ')' < p.count '('))
    ⟨fun ⟨trimmed, closed, all⟩ =>
      ⟨trimmed, fun p hp => (all p ((List.mem_inits p t).mpr hp)).1, closed,
        fun p hp =>
          (all p ((List.mem_inits p t).mpr ((List.prefix_append p [',']).trans hp))).2 hp⟩,
      fun h =>
        ⟨h.trimmed, h.closed, fun p hp => ⟨h.opened p ((List.mem_inits p t).mp hp), h.inside p⟩⟩⟩

/-- The depth of a text in the sense of its front parts. -/
theorem closes_of_count {depth : Nat} {cs : List Char}
    (opened : ∀ p : List Char, p <+: cs → p.count ')' ≤ depth + p.count '(')
    (closed : cs.count ')' = depth + cs.count '(')
    (inside : ∀ p : List Char, p ++ [','] <+: cs → p.count ')' < depth + p.count '(') :
    Closes depth cs := by
  induction cs generalizing depth with
  | nil =>
      obtain rfl : depth = 0 := closed.symm
      exact .done
  | cons c cs ih =>
      have hopened {p : List Char} (hp : p <+: cs) :=
        opened (c :: p) (List.cons_prefix_cons.mpr ⟨rfl, hp⟩)
      have hinside {p : List Char} (hp : p ++ [','] <+: cs) :=
        inside (c :: p) (List.cons_prefix_cons.mpr ⟨rfl, hp⟩)
      by_cases hopening : c = '('
      · subst hopening
        simp only [List.count_cons_self, List.count_cons_of_ne (show '(' ≠ ')' by decide)]
          at hopened hinside closed
        refine .opening (ih (fun p hp => ?_) (by omega) fun p hp => ?_)
        · have := hopened hp
          omega
        · have := hinside hp
          omega
      · by_cases hclosing : c = ')'
        · subst hclosing
          simp only [List.count_cons_self, List.count_cons_of_ne (show ')' ≠ '(' by decide)]
            at hopened hinside closed
          have hpositive : 1 ≤ depth := by simpa using hopened List.nil_prefix
          obtain ⟨depth, rfl⟩ := Nat.exists_eq_add_of_le' hpositive
          refine .closing (ih (fun p hp => ?_) (by omega) fun p hp => ?_)
          · have := hopened hp
            omega
          · have := hinside hp
            omega
        · simp only [List.count_cons_of_ne hopening, List.count_cons_of_ne hclosing]
            at hopened hinside closed
          refine .plain hopening hclosing (fun hc => ?_)
            (ih (fun p => hopened) closed fun p => hinside)
          have := inside [] (by simp [hc])
          simpa [Nat.pos_iff_ne_zero] using this

theorem IsArgument.closes {t : List Char} (h : IsArgument t) : Closes 0 t := by
  refine closes_of_count (fun p hp => ?_) ?_ fun p hp => ?_
  · simpa using h.opened p hp
  · simpa using h.closed
  · simpa using h.inside p hp

/-- The texts between the commas, with the blanks beside them. -/
def Padded (t p : List Char) : Prop :=
  ∃ a b, (∀ c ∈ a, isBlank c) ∧ (∀ c ∈ b, isBlank c) ∧ p = a ++ t ++ b

theorem Padded.refl (t : List Char) : Padded t t := ⟨[], [], by simp, by simp, by simp⟩

theorem Padded.closes {t p : List Char} (h : Padded t p) (ht : Closes 0 t) : Closes 0 p := by
  obtain ⟨a, b, ha, hb, rfl⟩ := h
  exact ((IsAtom.of_forall ha).closes.append ht).append (IsAtom.of_forall hb).closes

theorem Padded.trim_eq {t p : List Char} (h : Padded t p) (ht : trim t = t) : trim p = t := by
  obtain ⟨a, b, ha, hb, rfl⟩ := h
  have hbare : Bare isBlank t := ht ▸ bare_trimBy isBlank t
  exact hbare.trimBy_append ha hb

theorem joinWith_cons_of_ne_nil (sep p : List Char) {ps : List (List Char)} (h : ps ≠ []) :
    joinWith sep (p :: ps) = p ++ sep ++ joinWith sep ps := by
  cases ps with
  | nil => exact absurd rfl h
  | cons q ps => rfl

theorem joinWith_append_cons (sep a p : List Char) (ps : List (List Char)) :
    joinWith sep ((a ++ p) :: ps) = a ++ joinWith sep (p :: ps) := by
  cases ps with
  | nil => rfl
  | cons q ps => simp [joinWith]

theorem CommaList.exists_pieces {ts : List (List Char)} {text : List Char} (h : CommaList ts text) :
    ∃ ps, ps ≠ [] ∧ text = joinWith [','] ps ∧ List.Forall₂ Padded ts ps := by
  induction h with
  | last t => exact ⟨[t], List.cons_ne_nil t [], rfl, .cons (.refl t) .nil⟩
  | @more t a b cs ts before after _ ih =>
      obtain ⟨ps, hne, rfl, hps⟩ := ih
      cases hps with
      | nil => exact absurd rfl hne
      | @cons u p us ps hp hps =>
          obtain ⟨a', b', ha', hb', rfl⟩ := hp
          refine ⟨(t ++ a) :: (b ++ a' ++ u ++ b') :: ps, List.cons_ne_nil _ _, ?_,
            .cons ?_ (.cons ?_ hps)⟩
          · rw [joinWith_cons_of_ne_nil _ _ (List.cons_ne_nil _ _), List.append_assoc b a',
              List.append_assoc b, joinWith_append_cons [','] b]
            simp
          · exact ⟨[], a, by simp, before, by simp⟩
          · exact ⟨b ++ a', b', List.forall_mem_append.mpr ⟨after, ha'⟩, hb', rfl⟩

theorem map_trim_of_padded {ts ps : List (List Char)} (h : List.Forall₂ Padded ts ps)
    (hts : ∀ t ∈ ts, trim t = t) : ps.map trim = ts := by
  induction h with
  | nil => rfl
  | cons hp _ ih =>
      obtain ⟨ht, hts⟩ := List.forall_mem_cons.mp hts
      rw [List.map_cons, hp.trim_eq ht, ih hts]

theorem closes_of_padded {ts ps : List (List Char)} (h : List.Forall₂ Padded ts ps)
    (hts : ∀ t ∈ ts, Closes 0 t) : ∀ p ∈ ps, Closes 0 p := by
  induction h with
  | nil => exact List.forall_mem_nil _
  | cons hp _ ih =>
      obtain ⟨ht, hts⟩ := List.forall_mem_cons.mp hts
      exact List.forall_mem_cons.mpr ⟨hp.closes ht, ih hts⟩

/-- Arguments with commas between them are the arguments of what they make up. -/
theorem arguments_of_commaList {ts : List (List Char)} {text : List Char} (h : CommaList ts text)
    (hts : ∀ t ∈ ts, IsArgument t) : arguments text = ts := by
  obtain ⟨ps, hne, rfl, hps⟩ := h.exists_pieces
  rw [arguments_joinWith hne (closes_of_padded hps fun t ht => (hts t ht).closes)]
  exact map_trim_of_padded hps fun t ht => (hts t ht).trimmed

/-! ### The arguments of any text -/

theorem argumentPieces_ne_nil (depth : Int) (cs : List Char) : argumentPieces depth cs ≠ [] := by
  cases cs with
  | nil => exact List.cons_ne_nil _ _
  | cons c cs =>
      rw [argumentPieces]
      split
      · exact List.cons_ne_nil _ _
      · cases argumentPieces (depthAfter depth c) cs <;> exact List.cons_ne_nil _ _

theorem joinWith_consFirst (sep : List Char) (c : Char) (ps : List (List Char)) :
    joinWith sep (consFirst c ps) = c :: joinWith sep ps := by
  cases ps with
  | nil => rfl
  | cons p ps => exact joinWith_append_cons sep [c] p ps

/-- Only the commas between the pieces are not in them. -/
theorem joinWith_argumentPieces (depth : Int) (cs : List Char) :
    joinWith [','] (argumentPieces depth cs) = cs := by
  induction cs generalizing depth with
  | nil => rfl
  | cons c cs ih =>
      rw [argumentPieces]
      split
      · rename_i hcut
        rw [joinWith_cons_of_ne_nil _ _ (argumentPieces_ne_nil depth cs), ih, hcut.1]
        rfl
      · rw [joinWith_consFirst, ih]

/-- The trimmed texts of some pieces are a list with commas, but for the blanks at the ends. -/
theorem exists_commaList_map_trim {ps : List (List Char)} (hne : ps ≠ []) :
    ∃ a text b, joinWith [','] ps = a ++ text ++ b ∧ (∀ c ∈ a, isBlank c) ∧ (∀ c ∈ b, isBlank c) ∧
      CommaList (ps.map trim) text := by
  induction ps with
  | nil => exact absurd rfl hne
  | cons p ps ih =>
      obtain ⟨a, b, hp, ha, hb⟩ := exists_trimBy isBlank p
      cases ps with
      | nil => exact ⟨a, trim p, b, hp, ha, hb, .last _⟩
      | cons q ps =>
          obtain ⟨a', text, b', htext, ha', hb', hlist⟩ := ih (List.cons_ne_nil q ps)
          refine ⟨a, trim p ++ b ++ ',' :: (a' ++ text), b', ?_, ha, hb', .more hb ha' hlist⟩
          rw [joinWith_cons_of_ne_nil _ _ (List.cons_ne_nil q ps), htext]
          conv_lhs => rw [hp]
          simp [trim]

/-- The blanks at the ends of a text that is trimmed. -/
theorem eq_nil_of_trim {a text b : List Char} (h : trim (a ++ text ++ b) = a ++ text ++ b)
    (ha : ∀ c ∈ a, isBlank c) (hb : ∀ c ∈ b, isBlank c) : a = [] ∧ b = [] := by
  have hbare : Bare isBlank (a ++ text ++ b) := h ▸ bare_trimBy isBlank _
  constructor
  · cases a with
    | nil => rfl
    | cons c a =>
        have hfirst := hbare.first c rfl
        rw [ha c List.mem_cons_self] at hfirst
        cases hfirst
  · by_contra hne
    have hlast := hbare.last (b.getLast hne) (by
      rw [List.getLast?_append_of_ne_nil _ hne]
      exact List.getLast?_eq_some_getLast hne)
    rw [hb _ (List.getLast_mem hne)] at hlast
    cases hlast

/-- Arguments with commas between them are split where they were joined. Whatever a text holds, its
arguments with commas between them are the text, but for blanks at the commas and at its ends. -/
theorem arguments_rejoined (text : List Char) :
    (∀ ts, CommaList ts text → (∀ t ∈ ts, IsArgument t) → arguments text = ts) ∧
    ∃ a inner b, text = a ++ inner ++ b ∧ (∀ c ∈ a, isBlank c) ∧ (∀ c ∈ b, isBlank c) ∧
      CommaList (arguments text) inner ∧ (trim text = text → inner = text) := by
  refine ⟨fun ts => arguments_of_commaList, ?_⟩
  obtain ⟨a, inner, b, hjoin, ha, hb, hlist⟩ :=
    exists_commaList_map_trim (argumentPieces_ne_nil 0 text)
  rw [joinWith_argumentPieces] at hjoin
  refine ⟨a, inner, b, hjoin, ha, hb, hlist, fun htrim => ?_⟩
  rw [hjoin] at htrim
  obtain ⟨rfl, rfl⟩ := eq_nil_of_trim htrim ha hb
  simpa using hjoin.symm

theorem arguments_rejoined_nested :
    CommaList ["hsl(0, 5%, 5%)".toList, "".toList, "red".toList] "hsl(0, 5%, 5%) , , red".toList ∧
      (∀ t ∈ ["hsl(0, 5%, 5%)".toList, "".toList, "red".toList], IsArgument t) ∧
      arguments "hsl(0, 5%, 5%) , , red".toList =
        ["hsl(0, 5%, 5%)".toList, "".toList, "red".toList] := by
  have hspace : ∀ c ∈ [' '], isBlank c := List.forall_mem_singleton.mpr (by decide)
  have hlist : CommaList ["hsl(0, 5%, 5%)".toList, "".toList, "red".toList]
      "hsl(0, 5%, 5%) , , red".toList := by
    have htext : "hsl(0, 5%, 5%) , , red".toList =
        "hsl(0, 5%, 5%)".toList ++ [' '] ++
          ',' :: ([' '] ++ ("".toList ++ [] ++ ',' :: ([' '] ++ "red".toList))) := by
      decide
    rw [htext]
    exact .more hspace hspace (.more (List.forall_mem_nil _) hspace (.last _))
  have hts : ∀ t ∈ ["hsl(0, 5%, 5%)".toList, "".toList, "red".toList], IsArgument t := by decide
  exact ⟨hlist, hts, (arguments_rejoined _).1 _ hlist hts⟩

end Value
end UiMarkup
