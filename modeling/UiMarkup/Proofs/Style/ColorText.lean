import UiMarkup.Proofs.Outcome
import UiMarkup.Proofs.Value.Arguments
import UiMarkup.Style.Color

/-!
The texts of colors. A color is a word or a call without parentheses inside, and the
blanks around it do not count.
-/

namespace UiMarkup

namespace Text

theorem mem_piecesBy {sep : Char → Bool} {cs : List Char} {d : Char} (h : d ∈ cs)
    (hsep : sep d = false) : ∃ p ∈ piecesBy sep cs, d ∈ p := by
  induction cs with
  | nil => cases h
  | cons c cs ih =>
      rw [piecesBy]
      split
      · rename_i hc
        have hne : d ≠ c := by
          rintro rfl
          rw [hsep] at hc
          cases hc
        obtain ⟨p, hp, hd⟩ := ih (List.mem_of_ne_of_mem hne h)
        exact ⟨p, List.mem_cons_of_mem _ hp, hd⟩
      · cases hpieces : piecesBy sep cs with
        | nil => exact absurd hpieces (piecesBy_ne_nil sep cs)
        | cons q qs =>
            obtain rfl | h := List.mem_cons.mp h
            · exact ⟨d :: q, List.mem_cons_self, List.mem_cons_self⟩
            · obtain ⟨p, hp, hd⟩ := ih h
              rw [hpieces] at hp
              obtain rfl | hp := List.mem_cons.mp hp
              · exact ⟨c :: p, List.mem_cons_self, List.mem_cons_of_mem c hd⟩
              · exact ⟨p, List.mem_cons_of_mem _ hp, hd⟩

/-- The hexadecimal digits. -/
def hexChars : CodeSet := ⟨[(0x30, 0x39), (0x41, 0x46), (0x61, 0x66)]⟩

theorem isSeparator_of_hexValue? {d : Char} {n : Nat} (h : hexValue? d = some n) :
    isSeparator d = false := by
  have hin : hexChars.contains d = true := by
    rw [hexValue?] at h
    simp only [Char.le_def, UInt32.le_iff_toNat_le] at h
    have hval : d.val.toNat = d.toNat := rfl
    simp only [CodeSet.contains_iff, hexChars, List.exists_mem_cons_iff, List.not_mem_nil]
    split at h
    · rename_i hd
      exact .inl hd
    split at h
    · rename_i hd
      exact .inr (.inr (.inl hd))
    split at h
    · rename_i hd
      exact .inr (.inl hd)
    · cases h
  exact CodeSet.contains_of_apart (by decide) hin

theorem isSeparator_of_hexDigits {digits : List Char} {values : List Nat}
    (h : digits.mapM hexValue? = some values) : ∀ d ∈ digits, isSeparator d = false := by
  induction digits generalizing values with
  | nil => exact List.forall_mem_nil _
  | cons d digits ih =>
      rw [List.mapM_cons] at h
      obtain ⟨n, hn, h⟩ := Option.bind_eq_some_iff.mp h
      obtain ⟨ns, hns, _⟩ := Option.bind_eq_some_iff.mp h
      exact List.forall_mem_cons.mpr ⟨isSeparator_of_hexValue? hn, ih hns⟩

end Text

namespace Color

open Text Value

variable {text : String} (other : String) {component : List Char} {x : Float} {c : Color}

/-! ### Components -/

theorem isAtom_of_percent {what : String} {percent : List Char}
    (hdrop : dropSuffix? ['%'] component = some percent) (h : number what percent = .ok x) :
    IsAtom component :=
  .of_dropSuffix? hdrop (by decide) (isAtom_of_number h)

/-- A component that is read has no separators, and it is read alike whatever
text an error would show. -/
theorem readChannel_ok (h : readChannel text component = .ok x) :
    IsAtom component ∧ readChannel other component = .ok x := by
  unfold readChannel at h ⊢
  cases hdrop : dropSuffix? ['%'] component with
  | some percent =>
      simp only [hdrop, bind_eq_ok_iff, pure_eq_ok_iff, exists_eq_left', ite_error_eq_ok_iff] at h ⊢
      obtain ⟨y, hy, hunit⟩ := h
      exact ⟨isAtom_of_percent hdrop hy, y, hy, hunit⟩
  | none =>
      simp only [hdrop, bind_eq_ok_iff, pure_eq_ok_iff, exists_eq_left', ite_error_eq_ok_iff] at h ⊢
      obtain ⟨y, hy, hunit⟩ := h
      exact ⟨isAtom_of_number hy, y, hy, hunit⟩

theorem readAlpha_ok (h : readAlpha text component = .ok x) :
    IsAtom component ∧ readAlpha other component = .ok x := by
  unfold readAlpha at h ⊢
  cases hdrop : dropSuffix? ['%'] component with
  | some percent =>
      simp only [hdrop, bind_eq_ok_iff, pure_eq_ok_iff, exists_eq_left', ite_error_eq_ok_iff] at h ⊢
      obtain ⟨y, hy, hunit⟩ := h
      exact ⟨isAtom_of_percent hdrop hy, y, hy, hunit⟩
  | none =>
      simp only [hdrop, bind_eq_ok_iff, ite_error_eq_ok_iff] at h ⊢
      obtain ⟨y, hy, hunit⟩ := h
      exact ⟨isAtom_of_number hy, y, hy, hunit⟩

theorem readPercent_ok (h : readPercent text component = .ok x) :
    IsAtom component ∧ readPercent other component = .ok x := by
  unfold readPercent at h ⊢
  cases hdrop : dropSuffix? ['%'] component with
  | some percent =>
      simp only [hdrop, bind_eq_ok_iff, ite_error_eq_ok_iff] at h ⊢
      obtain ⟨y, hy, hunit⟩ := h
      exact ⟨isAtom_of_percent hdrop hy, y, hy, hunit⟩
  | none => simp [hdrop] at h

theorem readLastAlpha_ok {more : List (List Char)} (hmore : more.length ≤ 1)
    (h : readLastAlpha text more = .ok x) :
    (∀ a ∈ more, IsAtom a) ∧ readLastAlpha other more = .ok x := by
  match more with
  | [] => exact ⟨List.forall_mem_nil _, h⟩
  | [a] =>
      have ⟨hatom, hread⟩ := readAlpha_ok other h
      exact ⟨List.forall_mem_singleton.mpr hatom, hread⟩
  | _ :: _ :: _ => simp at hmore

/-! ### Calls -/

theorem readRgb_ok {components : List (List Char)} (h : readRgb text components = .ok c) :
    (∀ a ∈ components, IsAtom a) ∧ readRgb other components = .ok c := by
  unfold readRgb at h ⊢
  split at h
  · split at h
    · cases h
    rename_i r g b more hmore
    rw [if_neg hmore]
    simp only [bind_eq_ok_iff, pure_eq_ok_iff] at h ⊢
    obtain ⟨x, hr, y, hg, z, hb, w, ha, hc⟩ := h
    have ⟨hratom, hr⟩ := readChannel_ok other hr
    have ⟨hgatom, hg⟩ := readChannel_ok other hg
    have ⟨hbatom, hb⟩ := readChannel_ok other hb
    have ⟨hatoms, ha⟩ := readLastAlpha_ok other (not_lt.mp hmore) ha
    simp only [List.forall_mem_cons]
    exact ⟨⟨hratom, hgatom, hbatom, hatoms⟩, x, hr, y, hg, z, hb, w, ha, hc⟩
  · cases h

theorem readHsl_ok {components : List (List Char)} (h : readHsl text components = .ok c) :
    (∀ a ∈ components, IsAtom a) ∧ readHsl other components = .ok c := by
  unfold readHsl at h ⊢
  split at h
  · split at h
    · cases h
    rename_i hue s l more hmore
    rw [if_neg hmore]
    simp only [bind_eq_ok_iff, pure_eq_ok_iff] at h ⊢
    obtain ⟨x, hx, y, hs, z, hl, w, ha, hc⟩ := h
    have hueatom : IsAtom hue := by
      have hatom := isAtom_of_number hx
      cases hdrop : dropSuffix? "deg".toList hue with
      | none => rwa [hdrop] at hatom
      | some rest =>
          rw [hdrop] at hatom
          exact .of_dropSuffix? hdrop (by decide) hatom
    have ⟨hsatom, hs⟩ := readPercent_ok other hs
    have ⟨hlatom, hl⟩ := readPercent_ok other hl
    have ⟨hatoms, ha⟩ := readLastAlpha_ok other (not_lt.mp hmore) ha
    simp only [List.forall_mem_cons]
    exact ⟨⟨hueatom, hsatom, hlatom, hatoms⟩, x, hx, y, hs, z, hl, w, ha, hc⟩
  · cases h

/-! ### Colors -/

theorem forall_namedColors : ∀ p ∈ namedColors, p.1.toList.all isFunctionChar = true := by
  decide +kernel

theorem isSeparator_of_ofName? {name : String} (h : ofName? name = some c) :
    ∀ d ∈ name.toList, isSeparator d = false := by
  have hall : name.toList.all isFunctionChar = true := by
    rw [ofName?] at h
    split at h
    · rename_i hname
      rw [hname]
      decide
    · obtain ⟨p, hp, _⟩ := Option.map_eq_some_iff.mp h
      obtain rfl : p.1 = name := by simpa using List.find?_some hp
      exact forall_namedColors p (List.mem_of_find?_eq_some hp)
  exact fun d hd => isSeparator_of_isFunctionChar (List.all_eq_true.mp hall d hd)

/-- A call of a color function has no parentheses inside. -/
theorem flat_of_components {inner : List Char}
    (h : ∀ a ∈ (piecesBy isComponentGap inner).filter (!·.isEmpty), IsAtom a) :
    ∀ d ∈ inner, d ≠ '(' ∧ d ≠ ')' := by
  have habsent {d : Char} (hsep : isSeparator d = true) (hblank : isBlank d = false)
      (hgap : isComponentGap d = false) : d ∉ inner := by
    intro hd
    obtain ⟨p, hp, hmem⟩ := mem_piecesBy hd hgap
    refine (h p (List.mem_filter.mpr ⟨hp, ?_⟩)).not_mem hsep hblank hmem
    simpa using List.ne_nil_of_mem hmem
  intro d hd
  constructor
  · rintro rfl
    exact habsent (by decide) (by decide) (by decide) hd
  · rintro rfl
    exact habsent (by decide) (by decide) (by decide) hd

/-- The text of a color is a word or a call, and it can be trimmed. -/
theorem parse_ok {text : List Char} (h : parse text = .ok c) :
    IsWordOrCall (trim text) ∧ trim text ≠ [] ∧ parse (trim text) = .ok c := by
  unfold parse at h ⊢
  rw [trim_trim]
  generalize trim text = value at h ⊢
  dsimp only at h ⊢
  split at h
  case h_1 hname =>
    have hplain := isSeparator_of_ofName? hname
    rw [String.toList_ofList] at hplain
    refine ⟨.of_filter_eq (filter_lower value).symm (.word hplain), ?_, h⟩
    rintro rfl
    have hnone : ofName? (String.ofList (lower [])) = none := by decide
    rw [hnone] at hname
    cases hname
  case h_2 =>
    split at h
    case h_1 =>
      split at h
      case h_1 hcolor =>
        obtain ⟨values, hvalues, _⟩ := Option.bind_eq_some_iff.mp hcolor
        exact ⟨.word (List.forall_mem_cons.mpr ⟨by decide, isSeparator_of_hexDigits hvalues⟩),
          List.cons_ne_nil _ _, h⟩
      case h_2 => cases h
    case h_2 =>
      split at h
      case h_1 => cases h
      case h_2 name inner hcall =>
        have ⟨hlower, _, hname⟩ := functionCall?_eq_some_iff.mp hcall
        have hvalue : value ≠ [] := by
          rintro rfl
          have hnone : functionCall? (lower []) = none := by decide
          rw [hnone] at hcall
          cases hcall
        have hshape (hflat : ∀ d ∈ inner, d ≠ '(' ∧ d ≠ ')') : IsWordOrCall value := by
          apply IsWordOrCall.of_filter_eq (filter_lower value).symm
          rw [hlower]
          exact .call (fun d hd => isSeparator_of_isFunctionChar (hname d hd)) hflat
            (List.forall_mem_nil _)
        split at h
        · rename_i hrgb
          have ⟨hatoms, hread⟩ := readRgb_ok (String.ofList value) h
          exact ⟨hshape (flat_of_components hatoms), hvalue, (if_pos hrgb).trans hread⟩
        · rename_i hrgb
          split at h
          · rename_i hhsl
            have ⟨hatoms, hread⟩ := readHsl_ok (String.ofList value) h
            exact ⟨hshape (flat_of_components hatoms), hvalue,
              (if_neg hrgb).trans ((if_pos hhsl).trans hread)⟩
          · cases h

theorem closes_of_parse {text : List Char} (h : parse text = .ok c) : Closes 0 text := by
  obtain ⟨a, b, htext, ha, hb⟩ := exists_trimBy isBlank text
  have hshape : Closes 0 (trim text) := (parse_ok h).1.closes
  rw [htext]
  exact ((IsAtom.of_forall ha).closes.append hshape).append (IsAtom.of_forall hb).closes

end Color
end UiMarkup
