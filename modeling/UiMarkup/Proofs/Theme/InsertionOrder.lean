import Mathlib.Data.String.Basic
import UiMarkup.Proofs.DistinctKeys
import UiMarkup.Proofs.Lineage.Idempotence
import UiMarkup.Theme.StyleClass
import UiMarkup.Theme.Theme

/-!
The order of definitions is not seen. A walk looks names up and goes through them in their own
order, so over the same entities in another order it makes the same decisions with the same memory;
themes and style classes resolve to the same values then, or the same one of their faults is
reported, with the same names to choose from.
-/

namespace UiMarkup

namespace OrderedMap

variable {κ α : Type} {m m' : OrderedMap κ α}

/-- The same pairs in another order, with no key twice. -/
structure Reordered (m m' : OrderedMap κ α) : Prop where
  distinct : m.keys.Nodup
  pairs : m'.Perm m

namespace Reordered

theorem keys (h : m.Reordered m') : m'.keys.Perm m.keys := h.pairs.map Prod.fst

theorem distinct' (h : m.Reordered m') : m'.keys.Nodup := h.keys.nodup_iff.mpr h.distinct

variable [DecidableEq κ]

theorem get?_eq (h : m.Reordered m') (k : κ) : m'.get? k = m.get? k := by
  refine Option.ext fun a => ⟨fun found => ?_, fun found => ?_⟩
  · exact get?_of_mem h.distinct (h.pairs.mem_iff.mp (mem_of_get?_eq_some found))
  · exact get?_of_mem h.distinct' (h.pairs.mem_iff.mpr (mem_of_get?_eq_some found))

theorem has_eq (h : m.Reordered m') (k : κ) : m'.has k = m.has k :=
  congrArg Option.isSome (h.get?_eq k)

end Reordered

/-- Names in ascending order are determined by which ones they are. -/
theorem Reordered.sortedNames_eq {m m' : OrderedMap String α} (h : m.Reordered m') :
    m'.keys.mergeSort (· ≤ ·) = m.keys.mergeSort (· ≤ ·) := by
  have ascending (names : List String) : (names.mergeSort (· ≤ ·)).Pairwise (· ≤ ·) := by
    refine (List.pairwise_mergeSort ?_ ?_ names).imp fun le => of_decide_eq_true le
    · intro a b c
      simpa using le_trans
    · intro a b
      simpa using le_total a b
  refine List.Perm.eq_of_pairwise (fun a b _ _ => le_antisymm) (ascending m'.keys)
    (ascending m.keys) ?_
  exact (List.mergeSort_perm _ _).trans (h.keys.trans (List.mergeSort_perm _ _).symm)

end OrderedMap

/-- Both return, and the values go by the same names, or both fail with the same error. -/
inductive SameAnswer {ε α : Type} :
    Except ε (OrderedMap String α) → Except ε (OrderedMap String α) → Prop
  | returned {r r' : OrderedMap String α} : r.Reordered r' → SameAnswer (.ok r) (.ok r')
  | failed (e : ε) : SameAnswer (.error e) (.error e)

theorem SameAnswer.mapError {ε ε' α : Type} {r r' : Except ε (OrderedMap String α)}
    (h : SameAnswer r r') {f f' : ε → ε'} (same : ∀ e, f' e = f e) :
    SameAnswer (r.mapError f) (r'.mapError f') := by
  cases h with
  | returned h => exact .returned h
  | failed e =>
      rw [Except.mapError, Except.mapError, same]
      exact .failed _

/-! ### Walks -/

namespace Lineage

variable {α : Type} {g : Lineage α} {others : OrderedMap String α}

theorem step_reordered (h : g.entities.Reordered others) (w : Walk α) (name : String) (index : Nat)
    (below : List (String × Nat)) :
    step (g.withEntities others) w name index below = step g w name index below := by
  have looked : (g.withEntities others).entities.get? name = g.entities.get? name := h.get?_eq name
  have visited (w : Walk α) (parent : String) :
      visitParent (g.withEntities others) w name index parent below =
      visitParent g w name index parent below := by
    have known : (g.withEntities others).entities.has parent = g.entities.has parent :=
      h.has_eq parent
    rw [visitParent, visitParent, known]
  rw [step, step, looked]
  simp only [visited]
  -- entering and leaving a name do not look at the entities
  rfl

theorem run_reordered (h : g.entities.Reordered others) (fuel : Nat) (w : Walk α) :
    run (g.withEntities others) fuel w = run g fuel w := by
  induction fuel generalizing w with
  | zero => rw [run.eq_def, run.eq_def]
  | succ fuel ih =>
      rw [run.eq_def, run.eq_def]
      simp only [step_reordered h, ih]

theorem stepBound_reordered (h : g.entities.Reordered others) :
    stepBound (g.withEntities others) = stepBound g :=
  (h.pairs.map _).foldr_eq 0

theorem resolve_reordered (h : g.entities.Reordered others) (m : Memory α) (name : String) :
    resolve (g.withEntities others) m name = resolve g m name := by
  have known : (g.withEntities others).entities.has name = g.entities.has name := h.has_eq name
  rw [resolve, resolve, known, stepBound_reordered h]
  simp only [run_reordered h]

theorem resolveEach_reordered (h : g.entities.Reordered others) (m : Memory α)
    (names : List String) :
    resolveEach (g.withEntities others) m names = resolveEach g m names := by
  induction names generalizing m with
  | nil => rfl
  | cons name names ih =>
      rw [resolveEach, resolveEach, resolve_reordered h]
      simp only [ih]

/-- The memory is the same in the end; only the answer is listed in the order of the entities. -/
theorem resolveAllFresh_reordered (h : g.entities.Reordered others) :
    SameAnswer g.resolveAllFresh (g.withEntities others).resolveAllFresh := by
  have names : (g.withEntities others).sortedNames = g.sortedNames := h.sortedNames_eq
  have listed := resolveAllFresh_eq g
  have listed' := resolveAllFresh_eq (g.withEntities others)
  rw [names, resolveEach_reordered h] at listed'
  cases result : (resolveEach g {} g.sortedNames).1 with
  | error fault =>
      rw [listed, listed', result]
      exact .failed fault
  | ok _ =>
      rw [result] at listed listed'
      have keys := (resolveAllFresh_ok listed).1
      rw [listed, listed']
      exact .returned ⟨by rw [keys]; exact h.distinct, h.keys.filterMap _⟩

end Lineage

/-! ### Themes and style classes -/

theorem ThemeMap.errorOf_reordered {m m' : ThemeMap} (h : m.Reordered m') (fault : Lineage.Fault) :
    m'.errorOf fault = m.errorOf fault := by
  have names : m'.sortedNames = m.sortedNames := h.sortedNames_eq
  have placed (name : String) : m'.spanOf name = m.spanOf name :=
    congrArg (Option.map Theme.span) (h.get?_eq name)
  cases fault <;> simp only [errorOf, names, placed]

theorem ClassMap.errorOf_reordered {m m' : ClassMap} (h : m.Reordered m') (fault : Lineage.Fault) :
    m'.errorOf fault = m.errorOf fault := by
  have placed (name : String) : m'.spanOf name = m.spanOf name :=
    congrArg (Option.map StyleClass.span) (h.get?_eq name)
  cases fault <;> simp only [errorOf, placed]

/-- Over the same themes, or style classes, in another order, all of them resolve to the
same, or the same error is reported: which of several faults it is does not depend on the
order of the definitions. -/
theorem resolveAll_sameAnswer {themes themes' : ThemeMap} {classes classes' : ClassMap}
    (sameThemes : themes.Reordered themes') (sameClasses : classes.Reordered classes') :
    SameAnswer themes.resolveAll themes'.resolveAll ∧
    SameAnswer classes.resolveAll classes'.resolveAll :=
  ⟨(Lineage.resolveAllFresh_reordered (g := themes.lineage) sameThemes).mapError
    (ThemeMap.errorOf_reordered sameThemes),
    (Lineage.resolveAllFresh_reordered (g := classes.lineage) sameClasses).mapError
      (ClassMap.errorOf_reordered sameClasses)⟩

/-- Two themes that extend each other, and one that extends none that is there. -/
def ThemeMap.ringed : ThemeMap :=
  [("lost", { name := "lost", parent := some "ghost", span := ⟨1, 2, 1, 2⟩ }),
    ("night", { name := "night", parent := some "day", span := ⟨3, 4, 1, 4⟩ }),
    ("day", { name := "day", parent := some "night", span := ⟨5, 6, 1, 6⟩ })]

/-- A card over a panel and a frame that share their base. -/
def ClassMap.framed : ClassMap :=
  [("card", { name := "card", parents := ["panel", "frame"] }), ("base", { name := "base" }),
    ("panel", { name := "panel", parents := ["base"], layout := some { zIndex := some 1 } }),
    ("frame", { name := "frame", parents := ["base"], layout := some { zIndex := some 2 } })]

theorem resolveAll_sameAnswer_reverse :
    (ThemeMap.ringed.Reordered ThemeMap.ringed.reverse ∧
      ClassMap.framed.Reordered ClassMap.framed.reverse) ∧
    (SameAnswer ThemeMap.ringed.resolveAll (ThemeMap.resolveAll ThemeMap.ringed.reverse) ∧
      SameAnswer ClassMap.framed.resolveAll (ClassMap.resolveAll ClassMap.framed.reverse)) ∧
    ThemeMap.ringed.resolveAll = .error ⟨.circular ["day", "night", "day"], some ⟨5, 6, 1, 6⟩⟩ ∧
    ∃ r, ClassMap.framed.resolveAll = .ok r := by
  have themes : ThemeMap.ringed.Reordered ThemeMap.ringed.reverse :=
    ⟨by decide, List.reverse_perm _⟩
  have classes : ClassMap.framed.Reordered ClassMap.framed.reverse :=
    ⟨by decide, List.reverse_perm _⟩
  exact ⟨⟨themes, classes⟩, resolveAll_sameAnswer themes classes, by cbv, _, by cbv⟩

end UiMarkup
