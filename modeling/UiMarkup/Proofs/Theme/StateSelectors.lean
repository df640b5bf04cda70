import Mathlib
import UiMarkup.Proofs.Number.Margins
import UiMarkup.Widget.AttributeName

/-!
Selectors are canonical. Whatever the order of some states and however often each is named,
they have one selector, and it holds where all of them do. The names of states in front of the
name of an attribute are read back as that selector, in whatever case they are written, and so
is the text of a selector.
-/

namespace UiMarkup

open Text

namespace Text

/-! ### Lower case -/

theorem beyond_of_mem_tail_caseRuns : ∀ r ∈ caseRuns.tail, 0x80 ≤ r.first := by decide +kernel

theorem lowerChar_capital :
    ∀ n < 26, lowerChar (Char.ofNat (0x41 + n)) = [(Char.ofNat (0x41 + n)).toLower] := by
  decide +kernel

theorem toLower_of_not_capital {c : Char} (h : ¬ (0x41 ≤ c.toNat ∧ c.toNat ≤ 0x5A)) :
    c.toLower = c := by
  rw [Char.toLower]
  exact dif_neg h

/-- In ASCII, only the capitals change. -/
theorem lowerChar_of_ascii {c : Char} (h : c.toNat < 0x80) : lowerChar c = [c.toLower] := by
  by_cases hcapital : 0x41 ≤ c.toNat ∧ c.toNat ≤ 0x5A
  · have hchar := lowerChar_capital (c.toNat - 0x41) (by omega)
    rwa [Nat.add_sub_cancel' hcapital.1, Char.ofNat_toNat] at hchar
  · have hdotted : c ≠ '\u0130' := by
      rintro rfl
      exact absurd h (by decide)
    have hnone : caseRuns.find?
        (fun r => r.first ≤ c.toNat && c.toNat ≤ r.last && (c.toNat - r.first) % r.step == 0) =
        none := by
      rw [List.find?_eq_none]
      intro r hr hfound
      simp only [Bool.and_eq_true, decide_eq_true_eq] at hfound
      obtain rfl | hbeyond :=
        List.mem_cons.mp (show r ∈ ⟨0x41, 0x5A, 1, 32⟩ :: caseRuns.tail from hr)
      · exact hcapital hfound.1
      · have := beyond_of_mem_tail_caseRuns r hbeyond
        omega
    rw [lowerChar, if_neg hdotted, hnone, toLower_of_not_capital hcapital]

theorem lower_of_ascii {cs : List Char} (h : ∀ c ∈ cs, c.toNat < 0x80) :
    lower cs = cs.map Char.toLower := by
  suffices ∀ before, lowerAfter before cs = cs.map Char.toLower from this []
  induction cs with
  | nil => exact fun before => rfl
  | cons c cs ih =>
      obtain ⟨hc, hcs⟩ := List.forall_mem_cons.mp h
      intro before
      have hsigma : c ≠ '\u03A3' := by
        rintro rfl
        exact absurd hc (by decide)
      rw [lowerAfter, if_neg hsigma, lowerChar_of_ascii hc, ih hcs, List.map_cons,
        List.singleton_append]

end Text

/-! ### The states of a selector -/

theorem mem_canonicalStates {states : List WidgetState} {w : WidgetState} :
    w ∈ canonicalStates states ↔ w ∈ states := by
  simp [canonicalStates, WidgetState.mem_all]

theorem canonicalStates_eq_iff {xs ys : List WidgetState} :
    canonicalStates xs = canonicalStates ys ↔ ∀ w, w ∈ xs ↔ w ∈ ys := by
  constructor
  · intro h w
    rw [← mem_canonicalStates, h, mem_canonicalStates]
  · intro h
    unfold canonicalStates
    apply List.filter_congr
    intro w _
    rw [Bool.eq_iff_iff, List.contains_iff_mem, List.contains_iff_mem]
    exact h w

theorem canonicalStates_eq_nil_iff {states : List WidgetState} :
    canonicalStates states = [] ↔ states = [] := by
  rw [List.eq_nil_iff_forall_not_mem, List.eq_nil_iff_forall_not_mem]
  exact forall_congr' fun w => not_congr mem_canonicalStates

namespace StateSelector

variable {states : List WidgetState} {s : StateSelector} {w : WidgetState}

theorem ext_states {t : StateSelector} (h : s.states = t.states) : s = t := by
  cases s
  cases t
  cases h
  rfl

theorem ofList?_eq_some_iff : ofList? states = some s ↔ canonicalStates states = s.states := by
  rw [ofList?]
  constructor
  · intro h
    split at h
    · cases h
      rfl
    · cases h
  · intro h
    have hne : canonicalStates states ≠ [] := h ▸ s.ne_nil
    rw [dif_pos hne]
    exact congrArg some (ext_states h)

theorem ofList?_states (s : StateSelector) : ofList? s.states = some s :=
  ofList?_eq_some_iff.mpr s.canonical

theorem exists_ofList? (h : states ≠ []) : ∃ s, ofList? states = some s :=
  ⟨⟨canonicalStates states, canonicalStates_idem states, mt canonicalStates_eq_nil_iff.mp h⟩,
    ofList?_eq_some_iff.mpr rfl⟩

theorem mem_states_iff (h : ofList? states = some s) : w ∈ s.states ↔ w ∈ states := by
  rw [← ofList?_eq_some_iff.mp h]
  exact mem_canonicalStates

/-- Lists of the same states have the same selector. -/
theorem ofList?_eq_some_iff_of_ofList? (h : ofList? states = some s) {others : List WidgetState} :
    ofList? others = some s ↔ ∀ w, w ∈ others ↔ w ∈ states := by
  rw [ofList?_eq_some_iff, ← ofList?_eq_some_iff.mp h]
  exact canonicalStates_eq_iff

theorem holdsIn_iff {active : List WidgetState} :
    s.holdsIn active = true ↔ ∀ w ∈ s.states, w ∈ active := by
  simp [holdsIn]

end StateSelector

/-! ### Names of states -/

namespace WidgetState

/-- The text is the name of the state, whose letters may be small or capital. -/
def NamedBy (w : WidgetState) (text : String) : Prop := text.toList.map Char.toLower = w.name.toList

theorem namedBy_name (w : WidgetState) : w.NamedBy w.name := by
  cases w <;> rfl

variable {w : WidgetState} {text : String}

theorem NamedBy.isNumberChar (h : w.NamedBy text) : ∀ c ∈ text.toList, Number.IsNumberChar c := by
  have hname : w.name.toList.all Char.isAlpha := by
    cases w <;> decide
  refine Number.forall_isNumberChar_of_word ?_ hname
  rw [h, String.ofList_toList]

theorem NamedBy.no_colon (h : w.NamedBy text) : ':' ∉ text.toList := by
  intro hmem
  exact absurd (h.isNumberChar ':' hmem) (by unfold Number.IsNumberChar; decide)

theorem ofText?_of_namedBy (h : w.NamedBy text) : ofText? text = some w := by
  have htrim : trim text.toList = text.toList :=
    Number.trimBy_of_forall fun c hc => Number.isBlank_of_isNumberChar (h.isNumberChar c hc)
  have hlower : lower text.toList = w.name.toList := by
    rw [lower_of_ascii, h]
    intro c hc
    have := (h.isNumberChar c hc).range.2
    omega
  rw [ofText?, Value.keywordForm, htrim, hlower, String.ofList_toList]
  exact ofName?_name w

end WidgetState

namespace AttributeName

variable {states : List WidgetState} {texts : List String} {base : String}

theorem splitLast?_append (before : String) (plain : ':' ∉ base.toList) :
    splitLast? (before ++ ":" ++ base) = some (before, base) := by
  have hlist : (before ++ ":" ++ base).toList = before.toList ++ ':' :: base.toList := by simp
  rw [splitLast?, hlist, cutLast?_append _ plain]
  simp

theorem forall_no_colon (named : List.Forall₂ WidgetState.NamedBy states texts) :
    ∀ p ∈ texts.map String.toList, ':' ∉ p := by
  induction named with
  | nil => exact List.forall_mem_nil _
  | cons hw _ ih => exact List.forall_mem_cons.mpr ⟨hw.no_colon, ih⟩

theorem mapM_ofText? (named : List.Forall₂ WidgetState.NamedBy states texts) :
    (texts.map String.toList).mapM (fun p => WidgetState.ofText? (String.ofList p)) =
      some states := by
  induction named with
  | nil => rfl
  | @cons w text _ _ hw _ ih =>
      rw [List.map_cons, List.mapM_cons, ih, String.ofList_toList,
        WidgetState.ofText?_of_namedBy hw]
      rfl

/-- The names of some states in front of another name are read as the selector of the states. -/
theorem splitSelector?_names (named : List.Forall₂ WidgetState.NamedBy states texts)
    (given : states ≠ []) (nonempty : base ≠ "") (plain : ':' ∉ base.toList) :
    splitSelector? (":".intercalate (texts ++ [base])) = (StateSelector.ofList? states).map fun s =>
      (s, base) := by
  have hne : texts ≠ [] := by
    rintro rfl
    exact given (List.forall₂_nil_right_iff.mp named)
  have hpieces : pieces ':' (":".intercalate texts).toList = texts.map String.toList := by
    rw [String.toList_intercalate]
    exact pieces_intercalate (mt List.map_eq_nil_iff.mp hne) (forall_no_colon named)
  have hempty : base.isEmpty = false := by
    rw [Bool.eq_false_iff, ne_eq, String.isEmpty_iff]
    exact nonempty
  rw [String.intercalate_append_of_ne_nil hne (List.cons_ne_nil base []),
    String.intercalate_singleton, splitSelector?, splitLast?_append _ plain]
  simp only [Option.bind_eq_bind, Option.bind_some, hempty, hpieces, mapM_ofText? named]
  cases StateSelector.ofList? states <;> rfl

/-- The text of a selector in front of another name is read as the selector. -/
theorem splitSelector?_text (s : StateSelector) (nonempty : base ≠ "") (plain : ':' ∉ base.toList) :
    splitSelector? (s.text ++ ":" ++ base) = some (s, base) := by
  have named : List.Forall₂ WidgetState.NamedBy s.states (s.states.map WidgetState.name) := by
    rw [List.forall₂_map_right_iff, List.forall₂_same]
    exact fun w _ => w.namedBy_name
  have hne : s.states.map WidgetState.name ≠ [] := mt List.map_eq_nil_iff.mp s.ne_nil
  have h := splitSelector?_names named s.ne_nil nonempty plain
  rwa [String.intercalate_append_of_ne_nil hne (List.cons_ne_nil base []),
    String.intercalate_singleton, s.ofList?_states] at h

end AttributeName

namespace StateSelector

/-- Some states have one selector, in whatever order they come and however often. It holds where all
of them do, and is read back from their names in front of another name, as from its own text. -/
theorem ofList?_canonical {states : List WidgetState} (given : states ≠ []) :
    ∃ s, ofList? states = some s ∧
      (∀ others, ofList? others = some s ↔ ∀ w, w ∈ others ↔ w ∈ states) ∧
      (∀ active, s.holdsIn active = true ↔ ∀ w ∈ states, w ∈ active) ∧
      ∀ base : String, base ≠ "" → ':' ∉ base.toList →
        (∀ texts, List.Forall₂ WidgetState.NamedBy states texts →
          AttributeName.splitSelector? (":".intercalate (texts ++ [base])) = some (s, base)) ∧
        AttributeName.splitSelector? (s.text ++ ":" ++ base) = some (s, base) := by
  obtain ⟨s, hs⟩ := exists_ofList? given
  refine ⟨s, hs, fun others => ofList?_eq_some_iff_of_ofList? hs,
    fun active => ?_, fun base nonempty plain => ⟨?_, ?_⟩⟩
  · rw [holdsIn_iff]
    exact forall_congr' fun w => imp_congr_left (mem_states_iff hs)
  · intro texts named
    rw [AttributeName.splitSelector?_names named given nonempty plain, hs]
    rfl
  · exact AttributeName.splitSelector?_text s nonempty plain

theorem ofList?_canonical_shouted :
    [WidgetState.focus, .hover, .focus] ≠ [] ∧ "background" ≠ "" ∧ ':' ∉ "background".toList ∧
      List.Forall₂ WidgetState.NamedBy [.focus, .hover, .focus] ["FOCUS", "hover", "Focus"] ∧
      ∃ s, ofList? [.focus, .hover, .focus] = some s ∧ ofList? [.hover, .focus] = some s ∧
        AttributeName.splitSelector? "FOCUS:hover:Focus:background" = some (s, "background") ∧
        AttributeName.splitSelector? (s.text ++ ":" ++ "background") = some (s, "background") := by
  have given : [WidgetState.focus, .hover, .focus] ≠ [] := by decide
  have named : List.Forall₂ WidgetState.NamedBy [.focus, .hover, .focus]
      ["FOCUS", "hover", "Focus"] :=
    .cons rfl (.cons rfl (.cons rfl .nil))
  obtain ⟨s, hs, heq, -, hsplit⟩ := ofList?_canonical given
  obtain ⟨hnames, htext⟩ := hsplit "background" (by decide) (by decide)
  refine ⟨given, by decide, by decide, named, s, hs, (heq _).mpr (fun w => ?_), ?_, htext⟩
  · cases w <;> decide
  · have hjoined : ":".intercalate (["FOCUS", "hover", "Focus"] ++ ["background"]) =
        "FOCUS:hover:Focus:background" := by
      decide
    rw [← hjoined]
    exact hnames _ named

end StateSelector
end UiMarkup
