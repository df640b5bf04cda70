import UiMarkup.Proofs.Number.Whole

/-!
The text of a decimal number has no blank in it but those around it, so that it does not matter
whether they are trimmed first.
-/

namespace UiMarkup

open Text

namespace Text

/-- The blanks at both ends of a text, which are apart from what is left. -/
theorem exists_trimBy (p : Char → Bool) (cs : List Char) :
    ∃ a b, cs = a ++ trimBy p cs ++ b ∧ (∀ c ∈ a, p c) ∧ ∀ c ∈ b, p c := by
  refine ⟨cs.takeWhile p, ((cs.dropWhile p).reverse.takeWhile p).reverse, ?_, ?_, ?_⟩
  · rw [trimBy, trimRightBy, List.append_assoc, ← List.reverse_append,
      List.takeWhile_append_dropWhile, List.reverse_reverse, List.takeWhile_append_dropWhile]
  · exact fun c hc => List.mem_takeWhile_imp hc
  · exact fun c hc => List.mem_takeWhile_imp (List.mem_reverse.mp hc)

theorem trimRightBy_append {p : Char → Bool} {cs b : List Char} (hb : ∀ c ∈ b, p c) :
    trimRightBy p (cs ++ b) = trimRightBy p cs := by
  rw [trimRightBy, trimRightBy, List.reverse_append,
    List.dropWhile_append_of_pos (by simpa using hb)]

theorem trimRightBy_of_getLast? {p : Char → Bool} {cs : List Char}
    (h : ∀ c ∈ cs.getLast?, p c = false) : trimRightBy p cs = cs := by
  rw [trimRightBy, List.dropWhile_eq_self_iff.mpr, List.reverse_reverse]
  intro hlength
  rw [← List.head_eq_getElem (List.ne_nil_of_length_pos hlength), List.head_reverse]
  simpa using h _ (List.getLast?_eq_some_getLast (by simpa using List.ne_nil_of_length_pos hlength))

theorem trimRightBy_append_of_forall {p : Char → Bool} (cs : List Char) {ending : List Char}
    (h : ∀ c ∈ ending, p c = false) (hne : ending ≠ []) :
    trimRightBy p (cs ++ ending) = cs ++ ending := by
  apply trimRightBy_of_getLast?
  intro c hc
  rw [List.getLast?_append_of_ne_nil _ hne] at hc
  exact h c (List.mem_of_getLast? hc)

/-- The characters at both ends of a text, if it has any, are none of a class. -/
structure Bare (p : Char → Bool) (cs : List Char) : Prop where
  first : ∀ c ∈ cs.head?, p c = false
  last : ∀ c ∈ cs.getLast?, p c = false

namespace Bare

variable {p q : Char → Bool} {cs ds : List Char}

theorem of_forall (h : ∀ c ∈ cs, p c = false) : Bare p cs :=
  ⟨fun c hc => h c (List.mem_of_mem_head? hc), fun c hc => h c (List.mem_of_getLast? hc)⟩

theorem append (h : Bare p cs) (h' : Bare p ds) : Bare p (cs ++ ds) := by
  constructor
  · intro c hc
    rw [List.head?_append, Option.mem_def, Option.or_eq_some_iff] at hc
    exact hc.elim (h.first c) fun hc => h'.first c hc.2
  · intro c hc
    rw [List.getLast?_append, Option.mem_def, Option.or_eq_some_iff] at hc
    exact hc.elim (h'.last c) fun hc => h.last c hc.2

/-- Whatever stands between two bare texts. -/
theorem around (h : Bare p cs) (hne : cs ≠ []) (h' : Bare p ds) (hne' : ds ≠ [])
    {middle : List Char} : Bare p (cs ++ middle ++ ds) := by
  constructor
  · intro c hc
    rw [List.append_assoc, List.head?_append_of_ne_nil _ hne] at hc
    exact h.first c hc
  · intro c hc
    rw [List.getLast?_append_of_ne_nil _ hne'] at hc
    exact h'.last c hc

theorem all_eq_false (h : Bare p cs) (hne : cs ≠ []) : cs.all p = false := by
  obtain ⟨c, cs, rfl⟩ := List.exists_cons_of_ne_nil hne
  simp [h.first c rfl]

theorem mono (h : Bare p cs) (hpq : ∀ c, p c = false → q c = false) : Bare q cs :=
  ⟨fun c hc => hpq c (h.first c hc), fun c hc => hpq c (h.last c hc)⟩

/-- Trimming takes exactly what stands around a bare text. -/
theorem trimBy_append (h : Bare p cs) {a b : List Char} (ha : ∀ c ∈ a, p c) (hb : ∀ c ∈ b, p c) :
    trimBy p (a ++ cs ++ b) = cs := by
  rw [trimBy, List.append_assoc, List.dropWhile_append_of_pos ha]
  cases cs with
  | nil => simp [List.dropWhile_eq_nil_iff.mpr hb, trimRightBy]
  | cons c cs =>
      have hfirst : p c = false := h.first c rfl
      have hdrop : (c :: cs ++ b).dropWhile p = c :: cs ++ b := by simp [hfirst]
      rw [hdrop, trimRightBy_append hb, trimRightBy_of_getLast? h.last]

end Bare

theorem bare_trimBy (p : Char → Bool) (cs : List Char) : Bare p (trimBy p cs) := by
  refine ⟨fun c hc => ?_, fun c hc => getLast?_trimBy hc⟩
  have hprefix : trimBy p cs <+: cs.dropWhile p := by
    rw [trimBy, trimRightBy, ← List.reverse_suffix, List.reverse_reverse]
    exact List.dropWhile_suffix p
  obtain ⟨rest, hrest⟩ := hprefix
  have hfirst := List.head?_dropWhile_not p cs
  rw [← hrest, List.head?_append, Option.mem_def.mp hc] at hfirst
  simpa using hfirst

theorem trimBy_trimBy (p : Char → Bool) (cs : List Char) :
    trimBy p (trimBy p cs) = trimBy p cs := by
  simpa using (bare_trimBy p cs).trimBy_append (List.forall_mem_nil _) (List.forall_mem_nil _)

theorem trim_trim (cs : List Char) : trim (trim cs) = trim cs := trimBy_trimBy isBlank cs

/-- Trimming takes exactly the blanks around a text without blanks. -/
theorem trimBy_append {p : Char → Bool} {a cs b : List Char} (ha : ∀ c ∈ a, p c)
    (hcs : ∀ c ∈ cs, p c = false) (hb : ∀ c ∈ b, p c) : trimBy p (a ++ cs ++ b) = cs :=
  (Bare.of_forall hcs).trimBy_append ha hb

theorem trim_of_forall {cs : List Char} (h : ∀ c ∈ cs, isBlank c) : trim cs = [] := by
  simpa [trim] using trimBy_append h (List.forall_mem_nil _) (List.forall_mem_nil _)

end Text

namespace Number

/-- The signs, digits and letters of ASCII. -/
def graphics : CodeSet := ⟨[(0x21, 0x7E)]⟩

theorem apart_graphics_blanks : graphics.apart blanks := by decide

/-- A character of a number, once its digits are those of ASCII. -/
def IsNumberChar (c : Char) : Prop := c.isAlphanum ∨ c ∈ ['.', '+', '-', '_']

theorem IsNumberChar.range {c : Char} (h : IsNumberChar c) : 0x21 ≤ c.toNat ∧ c.toNat ≤ 0x7E := by
  obtain h | h := h
  · simp only [Char.isAlphanum, Char.isAlpha, Char.isUpper, Char.isLower, Char.isDigit,
      Bool.or_eq_true, Bool.and_eq_true, decide_eq_true_eq, ge_iff_le, UInt32.le_iff_toNat_le] at h
    have : c.toNat = c.val.toNat := rfl
    simp at h
    omega
  · fin_cases h <;> decide

theorem isBlank_of_isNumberChar {c : Char} (h : IsNumberChar c) : isBlank c = false :=
  CodeSet.contains_of_apart apart_graphics_blanks
    (CodeSet.contains_iff.mpr ⟨_, List.mem_cons_self, h.range⟩)

theorem isNumberChar_of_isDigit {c : Char} (h : c.isDigit) : IsNumberChar c :=
  .inl (by simp [Char.isAlphanum, h])

theorem forall_isNumberChar_of_word {body : List Char} {word : String}
    (h : String.ofList (body.map Char.toLower) = word) (hword : word.toList.all Char.isAlpha) :
    ∀ c ∈ body, IsNumberChar c := by
  intro c hc
  have hmem : c.toLower ∈ word.toList := by
    rw [← h, String.toList_ofList]
    exact List.mem_map_of_mem hc
  have halpha := List.all_eq_true.mp hword _ hmem
  rw [Char.isAlpha_toLower_eq_isAlpha] at halpha
  exact .inl (by simp [Char.isAlphanum, halpha])

theorem forall_of_dropUnderscores {P : Char → Prop} {afterDigit : Bool} {cs ds : List Char}
    (h : dropUnderscores afterDigit cs = some ds) (hmark : P '_') (hds : ∀ c ∈ ds, P c) :
    ∀ c ∈ cs, P c := by
  fun_induction dropUnderscores afterDigit cs generalizing ds with
  | case1 => simp
  | case2 afterDigit d rest hdigit ih => exact List.forall_mem_cons.mpr ⟨hmark, ih h hds⟩
  | case3 => cases h
  | case4 => cases h
  | case5 afterDigit c rest hc ih =>
      obtain ⟨ds, hrest, rfl⟩ := Option.map_eq_some_iff.mp h
      rw [List.forall_mem_cons] at hds
      exact List.forall_mem_cons.mpr ⟨hds.1, ih hrest hds.2⟩

theorem forall_of_takeSign {P : Char → Prop} {cs body : List Char} {negative : Bool}
    (h : takeSign cs = (negative, body)) (hminus : P '-') (hplus : P '+')
    (hbody : ∀ c ∈ body, P c) : ∀ c ∈ cs, P c := by
  unfold takeSign at h
  split at h
  · cases h
    exact List.forall_mem_cons.mpr ⟨hminus, hbody⟩
  · cases h
    exact List.forall_mem_cons.mpr ⟨hplus, hbody⟩
  · cases h
    exact hbody

theorem forall_isNumberChar_of_readExponent {cs : List Char} {e : Int}
    (h : readExponent cs = some e) : ∀ c ∈ cs, IsNumberChar c := by
  cases cs with
  | nil => simp
  | cons c cs =>
      rw [readExponent] at h
      split at h
      · rename_i hmark
        dsimp only at h
        split at h
        · rename_i hdigits
          refine List.forall_mem_cons.mpr ⟨.inl (by obtain rfl | rfl := hmark <;> decide), ?_⟩
          refine forall_of_takeSign rfl (.inr (by simp)) (.inr (by simp)) fun d hd => ?_
          exact isNumberChar_of_isDigit
            (List.all_eq_true.mp (Bool.and_eq_true_iff.mp hdigits).2 d hd)
        · cases h
      · cases h

theorem forall_mem_splitDigits {cs : List Char} (h : ∀ c ∈ (splitDigits cs).2, IsNumberChar c) :
    ∀ c ∈ cs, IsNumberChar c := by
  rw [← List.takeWhile_append_dropWhile (p := Char.isDigit) (l := cs), List.forall_mem_append]
  exact ⟨fun c hc => isNumberChar_of_isDigit (List.mem_takeWhile_imp hc), h⟩

theorem forall_isNumberChar_of_readUnsigned {negative : Bool} {cs : List Char} {x : Float}
    (h : readUnsigned negative cs = some x) : ∀ c ∈ cs, IsNumberChar c := by
  unfold readUnsigned at h
  dsimp only at h
  refine forall_mem_splitDigits ?_
  split at h
  · rename_i more hpoint
    rw [hpoint]
    refine List.forall_mem_cons.mpr ⟨.inr (by simp), forall_mem_splitDigits ?_⟩
    split at h
    · cases h
    · obtain ⟨e, he, -⟩ := Option.map_eq_some_iff.mp h
      exact forall_isNumberChar_of_readExponent he
  · split at h
    · cases h
    · obtain ⟨e, he, -⟩ := Option.map_eq_some_iff.mp h
      exact forall_isNumberChar_of_readExponent he

theorem isBlank_of_plainDigit {c : Char} (h : isBlank (plainDigit c) = false) :
    isBlank c = false := by
  rw [plainDigit] at h
  split at h
  · rename_i v hv
    exact isBlank_of_isDecimal (by simp [isDecimal, hv])
  · exact h

theorem isNumberChar_of_readFloat? {text : List Char} {x : Float} (h : readFloat? text = some x) :
    ∀ c ∈ trimBy isMargin text, IsNumberChar (plainDigit c) := by
  rw [readFloat?] at h
  obtain ⟨cs, hcs, h⟩ := Option.bind_eq_some_iff.mp h
  have hchars : ∀ c ∈ cs, IsNumberChar c := by
    dsimp only at h
    refine forall_of_takeSign rfl (.inr (by simp)) (.inr (by simp)) ?_
    split at h
    · rename_i hword
      obtain hword | hword := hword <;> exact forall_isNumberChar_of_word hword (by decide)
    · split at h
      · rename_i hword
        exact forall_isNumberChar_of_word hword (by decide)
      · exact forall_isNumberChar_of_readUnsigned h
  intro c hc
  exact forall_of_dropUnderscores hcs (.inr (by simp)) hchars _ (List.mem_map_of_mem hc)

theorem isBlank_of_readFloat? {text : List Char} {x : Float} (h : readFloat? text = some x) :
    ∀ c ∈ trimBy isMargin text, isBlank c = false :=
  fun c hc => isBlank_of_plainDigit (isBlank_of_isNumberChar (isNumberChar_of_readFloat? h c hc))

theorem isBlank_of_isMargin {c : Char} (h : isMargin c) : isBlank c := (Bool.and_eq_true_iff.mp h).1

/-- All blanks around a number can go before it is read. -/
theorem readFloat?_trim {text : List Char} {x : Float} (h : readFloat? text = some x) :
    readFloat? (trim text) = some x := by
  have hblank := isBlank_of_readFloat? h
  obtain ⟨a, b, htext, ha, hb⟩ := exists_trimBy isMargin text
  generalize hcore : trimBy isMargin text = core at htext hblank
  have htrim : trim text = core := by
    rw [trim, htext]
    exact trimBy_append (fun c hc => isBlank_of_isMargin (ha c hc)) hblank fun c hc =>
      isBlank_of_isMargin (hb c hc)
  have hmargin : trimBy isMargin core = core :=
    trimBy_of_forall fun c hc => by simp [isMargin, hblank c hc]
  rw [readFloat?, hcore] at h
  rw [readFloat?, htrim, hmargin]
  exact h

end Number
end UiMarkup
