import UiMarkup.Proofs.Number.Margins
import UiMarkup.Widget.VersionText

/-!
Which texts are versions. A text has the shape of one if two runs of decimal digits are left of it
when it is trimmed, with a dot between them; a line feed may stand before the dot. Such a text is a
version if its numbers are short enough to be read, and the text of a version is read back.
-/

namespace UiMarkup.Version

open Text Number

/-- Decimal digits of any script, at least one. -/
structure IsDecimals (ds : List Char) : Prop where
  ne_nil : ds ≠ []
  decimal : ∀ c ∈ ds, isDecimal c

/-- The digits of the two numbers in a trimmed text. -/
structure Shows (cs major minor : List Char) : Prop where
  first : IsDecimals major
  second : IsDecimals minor
  dotted : cs = major ++ '.' :: minor ∨ cs = major ++ '\n' :: '.' :: minor

/-- The problem with a text of another shape. -/
def misshapen (cs : List Char) : ParseProblem :=
  if cs.isEmpty then .emptyVersion else .versionFormat (String.ofList cs)

theorem kind_misshapen (cs : List Char) : (misshapen cs).kind = .invalidValue := by
  rw [misshapen]
  split <;> rfl

/-! ### Numbers -/

section

variable {cs ds : List Char}

theorem IsDecimals.not_mem (h : IsDecimals ds) {c : Char} (hc : isDecimal c = false) : c ∉ ds :=
  fun hmem => Bool.eq_false_iff.mp hc (h.decimal c hmem)

theorem isDecimals_iff : (!ds.isEmpty && ds.all isDecimal) = true ↔ IsDecimals ds := by
  rw [Bool.and_eq_true, List.all_eq_true, Bool.not_eq_true', List.isEmpty_eq_false_iff]
  exact ⟨fun ⟨hne, h⟩ => ⟨hne, h⟩, fun h => ⟨h.ne_nil, h.decimal⟩⟩

theorem isNumber_iff :
    isNumber cs = true ↔ ∃ ds, IsDecimals ds ∧ (cs = ds ∨ cs = ds ++ ['\n']) := by
  rw [isNumber, isDecimals_iff]
  cases hdrop : dropSuffix? ['\n'] cs with
  | none =>
      refine ⟨fun h => ⟨cs, h, .inl rfl⟩, ?_⟩
      rintro ⟨ds, h, rfl | rfl⟩
      · exact h
      · cases hdrop.symm.trans (dropSuffix?_eq_some_iff.mpr rfl)
  | some digits =>
      obtain rfl := dropSuffix?_eq_some_iff.mp hdrop
      refine ⟨fun h => ⟨digits, h, .inr rfl⟩, ?_⟩
      rintro ⟨ds, h, hds | hds⟩
      · have hfeed : '\n' ∈ ds := by simp [← hds]
        exact absurd hfeed (h.not_mem (by decide))
      · exact List.append_cancel_right hds ▸ h

theorem readNumber_of_isDecimals (h : IsDecimals ds) (hcs : cs = ds ∨ cs = ds ++ ['\n']) :
    readNumber cs =
      if maxDigits < ds.length then .error (.number (.tooManyDigits ds.length))
      else .ok (decimalsValue ds) := by
  have hmargin : ∀ c ∈ ds, isMargin c = false := fun c hc => isMargin_of_isDecimal (h.decimal c hc)
  have htrim : trimBy isMargin cs = ds := by
    obtain rfl | rfl := hcs
    · exact trimBy_of_forall hmargin
    · simpa using trimBy_append (a := []) (by simp) hmargin
        (List.forall_mem_singleton.mpr (by decide))
  rw [readNumber, readWhole_of_decimals htrim h.ne_nil h.decimal]
  split <;> rfl

end

/-! ### Versions -/

section

variable {text : String} {span : Span} {a b : List Char}

theorem exists_major_of_shows {cs : List Char} (h : Shows cs a b) :
    ∃ major, cs = major ++ '.' :: b ∧ (major = a ∨ major = a ++ ['\n']) := by
  obtain hcs | hcs := h.dotted
  · exact ⟨a, hcs, .inl rfl⟩
  · exact ⟨a ++ ['\n'], by simpa using hcs, .inr rfl⟩

theorem parse_of_shows (h : Shows (trim text.toList) a b) :
    parse text span =
      if maxDigits < a.length then .error (.number (.tooManyDigits a.length))
      else if maxDigits < b.length then .error (.number (.tooManyDigits b.length))
      else .ok ⟨decimalsValue a, decimalsValue b⟩ := by
  obtain ⟨major, htext, hmajor⟩ := exists_major_of_shows h
  have hdot : '.' ∉ major := by
    have : '.' ∉ a := h.first.not_mem (by decide)
    obtain rfl | rfl := hmajor <;> simpa using this
  have hpieces := pieces_eq_pair_iff.mpr ⟨htext, hdot, h.second.not_mem (by decide)⟩
  have hnonempty : (trim text.toList).isEmpty = false := by simp [htext]
  have hnumbers : (isNumber major && isNumber b) = true := by
    rw [isNumber_iff.mpr ⟨a, h.first, hmajor⟩, isNumber_iff.mpr ⟨b, h.second, .inl rfl⟩,
      Bool.and_self]
  simp only [parse, hnonempty, hpieces, hnumbers, readNumber_of_isDecimals h.first hmajor,
    readNumber_of_isDecimals h.second (.inl rfl), Bool.false_eq_true, if_false, if_true]
  split
  · rfl
  · split <;> rfl

/-- Only the first number can end in a line feed, since the text is trimmed. -/
theorem shows_of_isNumber {cs major minor : List Char} (hcs : trim cs = major ++ '.' :: minor)
    (hmajor : isNumber major) (hminor : isNumber minor) : ∃ a b, Shows (trim cs) a b := by
  obtain ⟨a, ha, hmajor⟩ := isNumber_iff.mp hmajor
  obtain ⟨b, hb, hminor⟩ := isNumber_iff.mp hminor
  obtain rfl : minor = b := by
    refine hminor.resolve_right fun hfeed => ?_
    have hlast : '\n' ∈ (trim cs).getLast? := by
      rw [hcs, hfeed, ← List.cons_append, ← List.append_assoc, List.getLast?_concat]
      rfl
    exact absurd (getLast?_trimBy hlast) (by decide)
  refine ⟨a, minor, ha, hb, ?_⟩
  obtain rfl | rfl := hmajor
  · exact .inl hcs
  · exact .inr (by simpa using hcs)

theorem parse_of_not_shows (h : ¬ ∃ a b, Shows (trim text.toList) a b) :
    parse text span = .error (.parse ⟨misshapen (trim text.toList), span⟩) := by
  rw [parse, misshapen]
  split
  · rfl
  · split
    · rename_i major minor hpieces
      obtain ⟨htext, -, -⟩ := pieces_eq_pair_iff.mp hpieces
      split
      · rename_i hnumbers
        rw [Bool.and_eq_true] at hnumbers
        exact absurd (shows_of_isNumber htext hnumbers.1 hnumbers.2) h
      · rfl
    · rfl

theorem isDecimals_toDigits (n : Nat) : IsDecimals (Nat.toDigits 10 n) :=
  ⟨Nat.toDigits_ne_nil, fun _ hc => isDecimal_of_mem_toDigits hc⟩

theorem toList_text (v : Version) :
    v.text.toList = Nat.toDigits 10 v.major ++ '.' :: Nat.toDigits 10 v.minor := by
  simp [text, Nat.toString_eq_repr, Nat.toList_repr]

theorem shows_of_dotted (ha : IsDecimals a) (hb : IsDecimals b) :
    Shows (trim (a ++ '.' :: b)) a b := by
  have hblank {ds : List Char} (h : IsDecimals ds) : ∀ c ∈ ds, isBlank c = false := fun c hc =>
    isBlank_of_isDecimal (h.decimal c hc)
  refine ⟨ha, hb, .inl (trimBy_of_forall ?_)⟩
  rw [List.forall_mem_append, List.forall_mem_cons]
  exact ⟨hblank ha, by decide, hblank hb⟩

theorem shows_text (v : Version) :
    Shows (trim v.text.toList) (Nat.toDigits 10 v.major) (Nat.toDigits 10 v.minor) :=
  toList_text v ▸ shows_of_dotted (isDecimals_toDigits v.major) (isDecimals_toDigits v.minor)

end

/-- A text is a version exactly when it shows two numbers that are short enough, and these are its
numbers. Where one is too long the first such is a fault of numbers. Any text of another shape is an
error at the attribute. -/
theorem parse_complete (text : String) (span : Span) :
    (∀ v, parse text span = .ok v ↔ ∃ a b, Shows (trim text.toList) a b ∧ a.length ≤ maxDigits ∧
      b.length ≤ maxDigits ∧ v = ⟨decimalsValue a, decimalsValue b⟩) ∧
    (∀ a b, Shows (trim text.toList) a b → ¬ (a.length ≤ maxDigits ∧ b.length ≤ maxDigits) →
      parse text span =
        .error (.number (.tooManyDigits (if maxDigits < a.length then a.length else b.length)))) ∧
    ((¬ ∃ a b, Shows (trim text.toList) a b) →
      ∃ e, parse text span = .error (.parse e) ∧ e.problem = misshapen (trim text.toList) ∧
        e.problem.kind = .invalidValue ∧ e.span = span) ∧
    ∀ v : Version, (Nat.toDigits 10 v.major).length ≤ maxDigits →
      (Nat.toDigits 10 v.minor).length ≤ maxDigits →
      parse v.text span = .ok v := by
  refine ⟨fun v => ⟨fun h => ?_, ?_⟩, fun a b hshows hlong => ?_, fun h => ?_,
    fun v hmajor hminor => ?_⟩
  · by_cases hshape : ∃ a b, Shows (trim text.toList) a b
    · obtain ⟨a, b, hshows⟩ := hshape
      rw [parse_of_shows hshows] at h
      split at h
      · cases h
      · split at h
        · cases h
        · cases h
          exact ⟨a, b, hshows, by omega, by omega, rfl⟩
    · cases (parse_of_not_shows hshape).symm.trans h
  · rintro ⟨a, b, hshows, ha, hb, rfl⟩
    rw [parse_of_shows hshows, if_neg (by omega), if_neg (by omega)]
  · rw [parse_of_shows hshows]
    split
    · rfl
    · rw [if_pos (by omega)]
  · exact ⟨_, parse_of_not_shows h, rfl, kind_misshapen _, rfl⟩
  · rw [parse_of_shows (shows_text v), if_neg (by omega), if_neg (by omega), decimalsValue_toDigits,
      decimalsValue_toDigits]

/-- A line feed is let through before the dot, a number with one digit too many is a fault of
numbers, and one number alone is an error at the attribute. -/
theorem parse_complete_lineFeed :
    let long := List.replicate (maxDigits + 1) '1'
    parse "1\n.0" .origin = .ok first ∧
    parse (String.ofList (long ++ ['.', '0'])) .origin =
      .error (.number (.tooManyDigits (maxDigits + 1))) ∧
    (∃ e, parse "1" .origin = .error (.parse e) ∧ e.problem = .versionFormat "1" ∧
      e.span = .origin) ∧
    parse newest.text .origin = .ok newest := by
  intro long
  have hone : IsDecimals ['1'] := ⟨by decide, List.forall_mem_singleton.mpr (by decide)⟩
  have hzero : IsDecimals ['0'] := ⟨by decide, List.forall_mem_singleton.mpr (by decide)⟩
  refine ⟨?_, ?_, ?_, ?_⟩
  · exact ((parse_complete _ _).1 first).mpr
      ⟨['1'], ['0'], ⟨hone, hzero, .inr (by decide)⟩, by decide, by decide, rfl⟩
  · have hlong : IsDecimals long :=
      ⟨List.cons_ne_nil _ _,
        fun c hc => List.eq_of_mem_replicate hc ▸ hone.decimal _ List.mem_cons_self⟩
    have hlength : maxDigits < long.length := by simp [long]
    have hshows : Shows (trim (String.ofList (long ++ ['.', '0'])).toList) long ['0'] := by
      rw [String.toList_ofList]
      exact shows_of_dotted hlong hzero
    rw [(parse_complete (String.ofList (long ++ ['.', '0'])) .origin).2.1 _ _ hshows (by omega),
      if_pos hlength, List.length_replicate]
  · have hshape : ¬ ∃ a b, Shows (trim "1".toList) a b := by
      rintro ⟨a, b, hshows⟩
      have hdot : '.' ∈ ['1'] := by
        obtain h | h := hshows.dotted <;> exact (show ['1'] = _ from h) ▸ by simp
      exact absurd hdot (by decide)
    obtain ⟨e, he, hproblem, -, hspan⟩ := (parse_complete "1" .origin).2.2.1 hshape
    exact ⟨e, he, hproblem, hspan⟩
  · exact (parse_complete "" .origin).2.2.2 newest (by decide) (by decide)

end UiMarkup.Version
