import UiMarkup.Proofs.Widget.Attributes

/-!
Reading a document ends with a document or with an error of it, as long as its numbers convert.
There is a document only if all groups in the attributes of its widgets are expressions.
-/

namespace UiMarkup

open ReadFault (IsError)

/-! ### Widgets -/

namespace Widget

variable {α β : Type} {good : α → Prop} {good' : β → Prop}

@[simp] theorem ends_refuse (problem : ParseProblem) (span : Span) :
    Ends good IsError (refuse problem span : Except ReadFault α) := .error trivial

theorem refuseIf_ends (problem : Option ParseProblem) (span : Span) :
    Ends (fun _ => True) IsError (refuseIf problem span) := by
  cases problem <;> simp [refuseIf]

theorem kindOf_ends (custom : List String) (tag : String) (span : Span) :
    Ends (fun _ => True) IsError (kindOf custom tag span) := by
  rw [kindOf]
  split
  · simp
  · split <;> simp

theorem checkChildren_ends (kind : Kind) (count : Nat) (span : Span) :
    Ends (fun _ => True) IsError (checkChildren kind count span) := by
  cases kind with
  | builtin k => exact refuseIf_ends _ span
  | custom _ => exact .ok trivial

theorem checkAttributes_ends (kind : Kind) (attributes : AttributeMap) (span : Span) :
    Ends (fun _ => True) IsError (checkAttributes kind attributes span) := by
  cases kind with
  | builtin k => exact refuseIf_ends _ span
  | custom _ => exact .ok trivial

theorem readLook_ends (kind : Kind) (attributes : AttributeMap) (span : Span) :
    Ends (fun _ => True) IsError (readLook kind attributes span) :=
  (Ends.any _).mapError fun _ _ => trivial

theorem readStates_ends (span : Span) (states : List (WidgetState × AttributeMap)) :
    Ends (fun _ => True) IsError (readStates span states) := by
  induction states with
  | nil => exact .ok trivial
  | cons s more ih =>
      rw [readStates]
      refine ((Ends.any _).mapError fun _ _ => trivial).bind fun style _ => ?_
      exact ih.bind fun _ _ => .ok trivial

/-- How the reading of widgets ends, whatever notices there were before. -/
def BuildEnds (good : α → Prop) (x : Build α) : Prop :=
  ∀ notices, Ends good IsError (x.run notices).1

namespace BuildEnds

theorem pure {a : α} (h : good a) : BuildEnds good (pure a : Build α) := fun _ => .ok h

theorem lift {x : Except ReadFault α} (h : Ends good IsError x) :
    BuildEnds good (liftM x : Build α) := fun _ => h

theorem bind {x : Build α} {f : α → Build β} (hx : BuildEnds good x)
    (hf : ∀ a, good a → BuildEnds good' (f a)) : BuildEnds good' (x >>= f) := by
  intro notices
  have hrun : Ends good IsError (x.run.run notices).1 := hx notices
  change Ends good' IsError (StateT.run (x >>= f).run notices).1
  rw [ExceptT.run_bind, StateT.run_bind]
  -- the second reader begins with the notices of the first
  generalize x.run.run notices = result at hrun ⊢
  obtain ⟨r, s⟩ := result
  cases hrun with
  | ok h => exact hf _ h s
  | error h => exact .error h

theorem mono {x : Build α} {better : α → Prop} (h : BuildEnds good x)
    (hmono : ∀ a, good a → better a) :
    BuildEnds better x := fun notices => (h notices).mono hmono

end BuildEnds

theorem assemble_ends (kind : Kind) (routed : Routed) (children : List Widget) (span : Span) :
    BuildEnds (fun _ => True) (assemble kind routed children span) := by
  refine .bind (.lift (checkChildren_ends kind children.length span)) fun _ _ => ?_
  refine .bind (.lift (readLook_ends kind routed.attributes span)) fun look _ => ?_
  refine .bind (.lift (readStates_ends span routed.states)) fun states _ => ?_
  have hnotices (notices : List Notice) :
      BuildEnds (fun _ => True) (modify (· ++ notices) : Build PUnit) :=
    fun _ => .ok trivial
  refine .bind (hnotices _) fun _ _ => ?_
  refine .bind (.lift (checkAttributes_ends kind _ span)) fun _ _ => ?_
  exact .pure trivial

mutual

theorem build_ends (custom : List String) (source : SourceMap) :
    ∀ e : Element, (∀ d ∈ e.walk, ∀ a ∈ d.attributes, a.NumbersConvert) →
      BuildEnds (fun _ => ∀ d ∈ e.walk, ∀ a ∈ d.attributes, a.Readable) (build custom source e)
  | ⟨tag, attributes, children, span⟩, h => by
      rw [Element.walk, List.forall_mem_cons] at h
      refine .bind (.lift (kindOf_ends custom tag span)) fun kind _ => ?_
      refine .bind (.lift (Routed.ofAttributes_ends source h.1)) fun routed hattributes => ?_
      refine .bind (buildAll_ends custom source children h.2) fun widgets hchildren => ?_
      rw [Element.walk, List.forall_mem_cons]
      exact (assemble_ends kind routed widgets span).mono fun _ _ => ⟨hattributes, hchildren⟩

theorem buildAll_ends (custom : List String) (source : SourceMap) :
    ∀ es : List Element, (∀ d ∈ Element.walkAll es, ∀ a ∈ d.attributes, a.NumbersConvert) →
      BuildEnds (fun _ => ∀ d ∈ Element.walkAll es, ∀ a ∈ d.attributes, a.Readable)
      (buildAll custom source es)
  | [], _ => .pure (by simp [Element.walkAll])
  | e :: es, h => by
      rw [Element.walkAll, List.forall_mem_append] at h
      refine .bind (build_ends custom source e h.1) fun w hw => ?_
      refine .bind (buildAll_ends custom source es h.2) fun ws hws => ?_
      rw [Element.walkAll, List.forall_mem_append]
      exact .pure ⟨hw, hws⟩

end

end Widget

/-! ### Documents -/

/-- The numbers of a version have a value. -/
def Version.NumbersConvert (text : String) : Prop :=
  ∀ part ∈ Text.pieces '.' (Text.trim text.toList), isNumber part → ∃ n,
    Number.readWhole part = .ok n

theorem Version.parse_ends {text : String} (h : NumbersConvert text) (span : Span) :
    Ends (fun _ => True) IsError (parse text span) := by
  have number {part : List Char} (hmem : part ∈ Text.pieces '.' (Text.trim text.toList))
      (hpart : isNumber part) : Ends (fun _ => True) IsError (readNumber part) := by
    obtain ⟨n, hn⟩ := h part hmem hpart
    rw [readNumber, hn]
    exact .ok trivial
  unfold parse
  dsimp only
  split
  · simp
  · split
    · rename_i major minor hpieces
      split
      · rename_i hboth
        obtain ⟨hmajor, hminor⟩ := Bool.and_eq_true_iff.mp hboth
        refine (number (by simp [hpieces]) hmajor).bind fun _ _ => ?_
        exact (number (by simp [hpieces]) hminor).bind fun _ _ => .ok trivial
      · simp
    · simp

theorem Version.checkSupported_ends (v : Version) (span : Span) :
    Ends (fun _ => True) IsError (v.checkSupported span) := by
  rw [checkSupported]
  split <;> simp

namespace Document

open Widget (BuildEnds Build)

/-- The numbers of the version that an element declares have a value. -/
def VersionConverts (root : Element) : Prop :=
  ∀ a, root.attribute? "version" = some a → Version.NumbersConvert a.value

theorem declaredVersion_ends {root : Element} (h : VersionConverts root) :
    Ends (fun _ => True) IsError (declaredVersion root) := by
  rw [declaredVersion]
  split
  · simp
  · rename_i a ha
    refine (Version.parse_ends (h a ha) a.span).bind fun v _ => ?_
    exact (v.checkSupported_ends a.span).bind fun _ _ => .ok trivial

theorem widgetOf_ends (s : Sections) (root : Element) :
    Ends (fun _ => True) IsError (widgetOf s root) := by
  rw [widgetOf]
  split
  · simp
  · split <;> simp

theorem checkVersions_ends (version : Version) (root : Widget) :
    Ends (fun _ => True) IsError (checkVersions version root) := by
  rw [checkVersions]
  split <;> simp

/-- The element is no section. -/
def IsWidget (e : Element) : Prop := SectionKind.ofTag? e.tag = none

instance : DecidablePred IsWidget :=
  fun e => inferInstanceAs (Decidable (SectionKind.ofTag? e.tag = none))

theorem addChild_ends (custom : List String) (source : SourceMap) (s : Sections) {e : Element}
    (h : IsWidget e → ∀ d ∈ e.walk, ∀ a ∈ d.attributes, a.NumbersConvert) :
    BuildEnds (fun _ => IsWidget e → ∀ d ∈ e.walk, ∀ a ∈ d.attributes, a.Readable)
      (addChild custom source s e) := by
  unfold addChild
  split
  · rename_i htag
    refine .bind (.lift (readThemes_ends e)) fun _ _ => .pure ?_
    simp [IsWidget, htag]
  · rename_i htag
    refine .bind (.lift (ClassMap.ofSection_ends e)) fun _ _ => .pure ?_
    simp [IsWidget, htag]
  · rename_i htag
    refine .pure ?_
    simp [IsWidget, htag]
  · rename_i htag
    refine .pure ?_
    simp [IsWidget, htag]
  · rename_i htag
    split
    · exact .lift (by simp)
    · refine .bind (Widget.build_ends custom source e (h htag)) fun w hw => .pure ?_
      exact fun _ => hw

theorem addChildren_ends (custom : List String) (source : SourceMap) (s : Sections)
    {es : List Element}
    (h : ∀ e ∈ es, IsWidget e → ∀ d ∈ e.walk, ∀ a ∈ d.attributes, a.NumbersConvert) :
    BuildEnds (fun _ => ∀ e ∈ es, IsWidget e → ∀ d ∈ e.walk, ∀ a ∈ d.attributes, a.Readable)
      (addChildren custom source s es) := by
  induction es generalizing s with
  | nil => exact .pure (by simp)
  | cons e es ih =>
      rw [List.forall_mem_cons] at h
      refine .bind (addChild_ends custom source s h.1) fun s' he => ?_
      refine (ih s' h.2).mono fun _ hes => ?_
      rw [List.forall_mem_cons]
      exact ⟨he, hes⟩

/-- The elements of a document that are widgets. -/
def widgetElements (root : Element) : List Element :=
  if root.tag = documentTag then (root.children.filter IsWidget).flatMap Element.walk else root.walk

/-- The numbers in the expressions of a document, and those of its version, have a value. -/
structure NumbersConvert (root : Element) : Prop where
  version : root.tag = documentTag → VersionConverts root
  expressions : ∀ e ∈ widgetElements root, ∀ a ∈ e.attributes, a.NumbersConvert

theorem forall_mem_widgetElements {root : Element} (htag : root.tag = documentTag)
    {P : Element → Prop} :
    (∀ e ∈ widgetElements root, P e) ↔ ∀ e ∈ root.children, IsWidget e → ∀ d ∈ e.walk, P d := by
  simp only [widgetElements, htag, if_true, List.mem_flatMap, List.mem_filter, decide_eq_true_eq]
  exact ⟨fun h e he hw d hd => h d ⟨e, ⟨he, hw⟩, hd⟩, fun h d ⟨e, ⟨he, hw⟩, hd⟩ => h e he hw d hd⟩

/-- Where numbers convert, there is a document or an error of it, and a document only if all groups
in attributes of widgets are expressions. -/
theorem ofMarkup_ends (custom : List String) {m : Markup} (h : NumbersConvert m.root) :
    BuildEnds (fun _ => ∀ e ∈ widgetElements m.root, ∀ a ∈ e.attributes, a.Readable)
        (ofMarkup custom m) := by
  rw [ofMarkup]
  split
  · rename_i htag
    have hexpressions := (forall_mem_widgetElements htag).mp h.expressions
    rw [forall_mem_widgetElements htag]
    refine .bind (.lift (declaredVersion_ends (h.version htag))) fun version _ => ?_
    refine .bind (addChildren_ends custom m.source {} hexpressions) fun s hs => ?_
    refine .bind (.lift (widgetOf_ends s m.root)) fun widget _ => ?_
    refine .bind (.lift (checkVersions_ends version widget)) fun _ _ => ?_
    exact .pure hs
  · rename_i htag
    have hall : widgetElements m.root = m.root.walk := if_neg htag
    refine .bind (Widget.build_ends custom m.source m.root (hall ▸ h.expressions)) fun w hw => ?_
    exact .pure (hall ▸ hw)

end Document
end UiMarkup
