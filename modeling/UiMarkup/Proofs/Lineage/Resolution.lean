import Mathlib
import UiMarkup.Proofs.Lineage.Success

/-!
Resolving all entities. It succeeds exactly on the graphs that are complete, acyclic and bounded,
and its answer has every entity over the resolved forms of its parents (`resolveAllFresh_resolves`).
-/

namespace UiMarkup.Lineage

variable {α : Type} {g : Lineage α}

/-- After calls that have all returned, their names are resolved. -/
theorem resolveEach_ok (names : List String) {m : Memory α} (sound : g.Sound m)
    (returned : (resolveEach g m names).1 = .ok ()) :
    g.Sound (resolveEach g m names).2 ∧
      (∀ x, m.marks.get? x = some .resolved →
        (resolveEach g m names).2.marks.get? x = some .resolved) ∧
      ∀ name ∈ names, (resolveEach g m names).2.marks.get? name = some .resolved := by
  induction names generalizing m with
  | nil => exact ⟨sound, fun _ h => h, by simp⟩
  | cons name names ih =>
      rw [resolveEach] at returned ⊢
      have sound' := (resolve_sound sound name).1
      have ok : ∀ a, (resolve g m name).1 = .ok a → g.Grows name m (resolve g m name).2 ∧
          (resolve g m name).2.resolved.get? name = some a := fun _ => resolve_ok sound
      generalize resolve g m name = answer at returned sound' ok ⊢
      obtain ⟨result, m'⟩ := answer
      cases result with
      | error fault => cases returned
      | ok a =>
          obtain ⟨grows, found⟩ := ok a rfl
          obtain ⟨sound'', kept, all⟩ := ih sound' returned
          refine ⟨sound'', fun x h => kept x (grows.kept x _ h), ?_⟩
          exact List.forall_mem_cons.mpr ⟨kept name (sound'.marked name a found), all⟩

/-- Calls for names that derive all return, as long as no name is left marked. -/
theorem resolveEach_of_derives (names : List String) {m : Memory α} (sound : g.Sound m)
    (clear : ∀ x, m.marks.get? x ≠ some .visiting)
    (derives : ∀ name ∈ names, ∃ d v, g.Derives name d v ∧ (d : Int) ≤ g.maxDepth) :
    (resolveEach g m names).1 = .ok () := by
  induction names generalizing m with
  | nil => rfl
  | cons name names ih =>
      obtain ⟨d, v, derived, within⟩ := derives name (by simp)
      have open' : ¬ g.Blocked m name := fun ⟨x, _, visiting⟩ => clear x visiting
      have returned := (resolve_eq_ok_iff sound name v).mpr ⟨⟨d, derived, within⟩, open'⟩
      obtain ⟨grows, _⟩ := resolve_ok sound returned
      rw [resolveEach]
      have rest := ih (resolve_sound sound name).1 (fun x h => clear x (grows.visiting h))
        fun n hn => derives n (List.mem_cons_of_mem _ hn)
      generalize resolve g m name = answer at returned rest ⊢
      obtain ⟨result, m'⟩ := answer
      obtain rfl : result = .ok v := returned
      exact rest

theorem mem_sortedNames (g : Lineage α) (name : String) :
    name ∈ g.sortedNames ↔ g.entities.has name = true := by
  rw [OrderedMap.has_iff_mem_keys]
  exact List.mem_mergeSort

/-- Names with what is found for each. -/
theorem gather_spec (f : String → Option α) (names : List String)
    (all : ∀ name ∈ names, (f name).isSome) :
    OrderedMap.keys (names.filterMap fun n => (f n).map (n, ·)) = names ∧
      ∀ name ∈ names, OrderedMap.get? (names.filterMap fun n => (f n).map (n, ·)) name =
        f name := by
  induction names with
  | nil => exact ⟨rfl, by simp⟩
  | cons first names ih =>
      obtain ⟨value, found⟩ := Option.isSome_iff_exists.mp (all first (by simp))
      obtain ⟨keys, values⟩ := ih fun n hn => all n (List.mem_cons_of_mem _ hn)
      simp only [List.filterMap_cons, found, Option.map_some]
      refine ⟨congrArg (first :: ·) keys, fun name mem => ?_⟩
      by_cases same : first = name
      · subst same
        simp [OrderedMap.get?, found]
      · have later := values name ((List.mem_cons.mp mem).resolve_left (Ne.symm same))
        simpa [OrderedMap.get?, same] using later

theorem resolveAllFresh_eq (g : Lineage α) :
    g.resolveAllFresh = (resolveEach g {} g.sortedNames).1.map fun _ =>
      g.entities.keys.filterMap fun n =>
        ((resolveEach g {} g.sortedNames).2.resolved.get? n).map (n, ·) := by
  unfold resolveAllFresh resolveAll
  generalize resolveEach g {} g.sortedNames = answer
  obtain ⟨result, m⟩ := answer
  cases result <;> rfl

/-- All entities are resolved when each of them derives within the depth. -/
theorem resolveAllFresh_isOk_iff (g : Lineage α) :
    (∃ r, g.resolveAllFresh = .ok r) ↔
      ∀ name, g.entities.has name = true → ∃ d v, g.Derives name d v ∧ (d : Int) ≤ g.maxDepth := by
  rw [resolveAllFresh_eq]
  constructor
  · rintro ⟨r, returned⟩ name known
    cases result : (resolveEach g {} g.sortedNames).1 with
    | error fault => simp [result, Except.map] at returned
    | ok _ =>
        obtain ⟨sound, _, all⟩ := resolveEach_ok _ (.empty g) result
        obtain ⟨d, v, _, _, derived, within⟩ :=
          sound.derived name (all name ((g.mem_sortedNames name).mpr known))
        exact ⟨d, v, derived, within⟩
  · intro derives
    have returned := resolveEach_of_derives g.sortedNames (.empty g) (by simp [OrderedMap.get?])
      fun name mem => derives name ((g.mem_sortedNames name).mp mem)
    exact ⟨_, by rw [returned]; rfl⟩

/-- The answer has the names of the entities, each with the form that it derives. -/
theorem resolveAllFresh_ok {r : OrderedMap String α} (returned : g.resolveAllFresh = .ok r) :
    r.keys = g.entities.keys ∧ ∀ name, g.entities.has name = true →
      ∃ d v, g.Derives name d v ∧ (d : Int) ≤ g.maxDepth ∧ r.get? name = some v := by
  rw [resolveAllFresh_eq] at returned
  cases result : (resolveEach g {} g.sortedNames).1 with
  | error fault => simp [result, Except.map] at returned
  | ok _ =>
      obtain ⟨sound, _, all⟩ := resolveEach_ok _ (.empty g) result
      have found : ∀ name ∈ g.entities.keys, ∃ d v, g.Derives name d v ∧ (d : Int) ≤ g.maxDepth ∧
          (resolveEach g {} g.sortedNames).2.resolved.get? name = some v := by
        intro name mem
        have known := (g.entities.has_iff_mem_keys name).mpr mem
        obtain ⟨d, v, _, value, derived, within⟩ :=
          sound.derived name (all name ((g.mem_sortedNames name).mpr known))
        exact ⟨d, v, derived, within, value⟩
      obtain ⟨keys, values⟩ := gather_spec (resolveEach g {} g.sortedNames).2.resolved.get?
        g.entities.keys fun name mem => by
          obtain ⟨_, _, _, _, value⟩ := found name mem
          simp [value]
      simp only [result, Except.map] at returned
      obtain rfl := Except.ok.inj returned
      refine ⟨keys, fun name known => ?_⟩
      have mem := (g.entities.has_iff_mem_keys name).mp known
      obtain ⟨d, v, derived, within, value⟩ := found name mem
      exact ⟨d, v, derived, within, (values name mem).trans value⟩

/-- Resolving all entities succeeds exactly when every parent is there, no name is its own ancestor
and no chain is too long. The answer then has the names of the entities; one without parents stays
as it is, and any other is merged over the resolved forms of its parents, in their order. A call for
one name alone gives the same. -/
theorem resolveAllFresh_resolves (g : Lineage α) :
    ((∃ r, g.resolveAllFresh = .ok r) ↔ g.Complete ∧ g.Acyclic ∧ g.Bounded) ∧
      ∀ r, g.resolveAllFresh = .ok r →
        r.keys = g.entities.keys ∧
        ∀ name e, g.entities.get? name = some e →
          ∃ v, r.get? name = some v ∧ g.resolveFresh name = .ok v ∧
            (g.parents e = [] → v = e) ∧
            (g.parents e ≠ [] → ∃ vs, (g.parents e).map r.get? = vs.map some ∧
              v = g.merge e vs) := by
  refine ⟨(resolveAllFresh_isOk_iff g).trans (derives_iff g), fun r returned => ?_⟩
  obtain ⟨keys, values⟩ := resolveAllFresh_ok returned
  refine ⟨keys, fun name e entity => ?_⟩
  obtain ⟨d, v, derived, within, value⟩ := values name (has_of_get? entity)
  refine ⟨v, value, (g.resolveFresh_eq_ok_iff name v).mpr ⟨d, derived, within⟩, ?_⟩
  -- the form of a name is unique, so the parents' forms in the derivation are
  -- the ones in the answer
  cases derived with
  | @intro _ e' depth form entity' parents =>
      obtain rfl : e' = e := by simpa [entity'] using entity
      refine ⟨fun root => by simp [assemble, root], fun inner => ⟨(g.parents e').map form, ?_, ?_⟩⟩
      · rw [List.map_map]
        refine List.map_congr_left fun p hp => ?_
        obtain ⟨d', v', derived', _, value'⟩ := values p (parents p hp).known
        exact value'.trans (congrArg some ((parents p hp).unique derived').2.symm)
      · unfold assemble
        split
        · contradiction
        · rfl

/-- Entities that are lists, each merged by adding what its parents hold. -/
def listed (entities : OrderedMap String (List Nat × List String)) (maxDepth : Int) :
    Lineage (List Nat × List String) :=
  ⟨entities, Prod.snd, fun e parents => (e.1 ++ parents.flatMap Prod.fst, e.2), maxDepth⟩

/-- Two ways lead from the leaf to the root. -/
def diamond : Lineage (List Nat × List String) :=
  listed [("leaf", [4], ["left", "right"]), ("right", [3], ["root"]), ("left", [2], ["root"]),
    ("root", [1], [])] 3

theorem resolveAllFresh_resolves_diamond :
    (diamond.Complete ∧ diamond.Acyclic ∧ diamond.Bounded) ∧
      ∃ r, diamond.resolveAllFresh = .ok r ∧
        diamond.entities.get? "leaf" = some ([4], ["left", "right"]) ∧
        ∃ v, r.get? "leaf" = some v ∧ diamond.resolveFresh "leaf" = .ok v ∧
          ∃ vs, (["left", "right"].map r.get?) = vs.map some ∧
            v = diamond.merge ([4], ["left", "right"]) vs := by
  have returned : diamond.resolveAllFresh = .ok [("leaf", [4, 2, 1, 3, 1], ["left", "right"]),
      ("right", [3, 1], ["root"]), ("left", [2, 1], ["root"]), ("root", [1], [])] := by cbv
  have entity : diamond.entities.get? "leaf" = some ([4], ["left", "right"]) := by cbv
  obtain ⟨v, value, alone, _, merged⟩ :=
    ((resolveAllFresh_resolves diamond).2 _ returned).2 "leaf" _ entity
  exact ⟨(resolveAllFresh_resolves diamond).1.mp ⟨_, returned⟩, _, returned, entity, v, value,
    alone, merged (by simp [diamond, listed])⟩

end UiMarkup.Lineage
