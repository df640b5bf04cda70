import Mathlib
import UiMarkup.Document.Basic
import UiMarkup.Proofs.Outcome

/-!
How the readers of a document end: with a value that meets one condition, or with a fault that meets
another. No reader of themes and style classes passes on a fault that is no error of the document.
-/

namespace UiMarkup

variable {ε α β : Type}

namespace ReadFault

/-- The fault is an error of the document. -/
def IsError : ReadFault → Prop
  | .parse _ => True
  | _ => False

/-- The fault is an error of the document or of a theme in it. -/
def IsErrorOrTheme : ReadFault → Prop
  | .parse _ | .theme _ => True
  | _ => False

@[simp] theorem isError_parse (e : ParseError) : (ReadFault.parse e).IsError := trivial

@[simp] theorem isErrorOrTheme_parse (e : ParseError) : (ReadFault.parse e).IsErrorOrTheme :=
  trivial

@[simp] theorem isErrorOrTheme_theme (e : ThemeError) : (ReadFault.theme e).IsErrorOrTheme :=
  trivial

theorem IsError.exists_eq {f : ReadFault} (h : f.IsError) : ∃ e, f = .parse e := by
  cases f with
  | parse e => exact ⟨e, rfl⟩
  | theme _ | number _ | unknownEncoding _ => exact h.elim

end ReadFault

open ReadFault (IsError IsErrorOrTheme)

section Invalid

variable {good : α → Prop} (problem : ParseProblem) (e : Element)

@[simp] theorem ends_invalid : Ends good IsError (invalid problem e : Except ReadFault α) :=
  .error trivial

@[simp] theorem ends_invalid_theme :
    Ends good IsErrorOrTheme (invalid problem e : Except ReadFault α) := .error trivial

end Invalid

/-! ### Themes -/

section Themes

theorem Palette.ofElement_ends (e : Element) (theme : String) :
    Ends (fun _ => True) IsErrorOrTheme (Palette.ofElement e theme) := by
  refine Ends.foldlM (fun p a => ?_) _ _
  rw [addAttribute]
  split
  · simp
  · split <;> simp

theorem Typography.ofElement_ends (e : Element) :
    Ends (fun _ => True) IsErrorOrTheme (Typography.ofElement e) := by
  have number (name text : String) :
      Ends (fun _ => True) IsErrorOrTheme (readNumber e name text) := by
    rw [readNumber]
    split <;> simp
  have weight (text : String) : Ends (fun _ => True) IsErrorOrTheme (readWeight e text) := by
    rw [readWeight]
    split <;> simp
  refine Ends.foldlM (fun t a => ?_) _ _
  unfold addAttribute
  dsimp only
  split
  · simp
  · exact (weight _).bind (by simp)
  · exact (number _ _).bind (by simp)
  · exact (number _ _).bind (by simp)
  · exact (number _ _).bind (by simp)
  · exact (number _ _).bind (by simp)
  · simp

theorem spacingOfElement_ends (e : Element) :
    Ends (fun _ => True) IsErrorOrTheme (spacingOfElement e) := by
  rw [spacingOfElement]
  split
  · simp
  · split <;> simp

theorem baseStylesOfElement_ends (e : Element) :
    Ends (fun _ => True) IsErrorOrTheme (baseStylesOfElement e) := by
  have style (child : Element) :
      Ends (fun _ => True) IsErrorOrTheme (baseStyleOfElement child) := by
    rw [baseStyleOfElement]
    split
    · simp
    · split <;> simp
  exact Ends.foldlM (fun _ child => (style child).bind (by simp)) _ _

theorem Theme.ofElement_ends (e : Element) :
    Ends (fun _ => True) IsErrorOrTheme (Theme.ofElement e) := by
  refine Ends.foldlM (fun t child => ?_) _ _
  unfold addChild
  split
  · exact (Palette.ofElement_ends child t.name).bind (by simp)
  · exact (Typography.ofElement_ends child).bind (by simp)
  · exact (spacingOfElement_ends child).bind (by simp)
  · exact (baseStylesOfElement_ends child).bind (by simp)
  · simp

theorem ThemeMap.ofSection_ends (e : Element) :
    Ends (fun _ => True) IsErrorOrTheme (ThemeMap.ofSection e) := by
  refine Ends.foldlM (fun m child => ?_) _ _
  rw [addChild]
  split
  · refine (Theme.ofElement_ends child).bind fun t _ => ?_
    rw [addNew]
    split <;> simp
  · simp

/-- An error of a theme becomes one of the document. -/
theorem Document.readThemes_ends (e : Element) :
    Ends (fun _ => True) IsError (Document.readThemes e) := by
  refine (ThemeMap.ofSection_ends e).mapError fun fault h => ?_
  cases fault with
  | parse _ | theme _ => exact trivial
  | number _ | unknownEncoding _ => exact h.elim

end Themes

/-! ### Style classes -/

namespace StyleClass

theorem addAttribute_ends (e : Element) (r : Routed) (a : Attribute) :
    Ends (fun _ => True) IsError (addAttribute e r a) := by
  have state : Ends (fun _ => True) IsError (addStateAttribute e r a) := by
    rw [addStateAttribute]
    split
    · simp
    · split <;> simp
  rw [addAttribute]
  split
  · simp
  · split
    · simp
    · split
      · exact state
      · split <;> simp

theorem addChild_ends (name : String) (r : Routed) (e : Element) :
    Ends (fun _ => True) IsError (addChild name r e) := by
  rw [addChild]
  split <;> simp

theorem readVariants_ends {κ : Type} (label : κ → String) (e : Element)
    (variants : List (κ × OrderedMap String String)) :
    Ends (fun _ => True) IsError (readVariants label e variants) := by
  induction variants with
  | nil => simp [readVariants]
  | cons v more ih =>
      rw [readVariants]
      split
      · simp
      · exact ih.bind (by simp)

theorem ofElement_ends (e : Element) : Ends (fun _ => True) IsError (ofElement e) := by
  unfold ofElement
  dsimp only
  split
  · simp
  · refine (Ends.foldlM (addAttribute_ends e) _ _).bind fun routed _ => ?_
    refine (Ends.foldlM (addChild_ends _) _ _).bind fun routed _ => ?_
    split
    · simp
    · refine (readVariants_ends _ _ _).bind fun states _ => ?_
      exact (readVariants_ends _ _ _).bind (by simp)

end StyleClass

theorem ClassMap.ofSection_ends (e : Element) :
    Ends (fun _ => True) IsError (ClassMap.ofSection e) := by
  refine Ends.foldlM (fun m child => ?_) _ _
  rw [addChild]
  split
  · exact (StyleClass.ofElement_ends child).bind (by simp)
  · simp

end UiMarkup
