import UiMarkup.Proofs.Lineage.Resolution

/-!
Resolving what is resolved. When merging an entity once more with the same parents changes nothing,
every form that a graph derives is derived with the same length in the graph over the resolved
forms, so they resolve to themselves.
-/

namespace UiMarkup.Lineage

variable {α : Type} {g : Lineage α} {P : α → Prop}

/-- Where the entities have a property, all that is merged has it, keeps its
parents and absorbs them. -/
structure Absorbing (g : Lineage α) (P : α → Prop) : Prop where
  entities : ∀ name e, g.entities.get? name = some e → P e
  parents : ∀ e vs, g.parents (g.merge e vs) = g.parents e
  kept : ∀ e vs, P e → (∀ v ∈ vs, P v) → P (g.merge e vs)
  again : ∀ e vs, P e → (∀ v ∈ vs, P v) → g.merge (g.merge e vs) vs = g.merge e vs

/-- The same graph with other entities. -/
def withEntities (g : Lineage α) (entities : OrderedMap String α) : Lineage α := { g with entities }

theorem parents_assemble (h : g.Absorbing P) (e : α) (vs : List α) :
    g.parents (g.assemble e vs) = g.parents e := by
  rw [assemble]
  split
  · rfl
  · exact h.parents e vs

theorem assemble_assemble (h : g.Absorbing P) {e : α} {vs : List α} (own : P e)
    (inherited : ∀ v ∈ vs, P v) : g.assemble (g.assemble e vs) vs = g.assemble e vs := by
  cases parents : g.parents e with
  | nil => simp [assemble, parents]
  | cons p ps => simp [assemble, parents, h.parents, h.again e vs own inherited]

theorem Derives.property (h : g.Absorbing P) {name : String} {d : Nat} {v : α}
    (derived : g.Derives name d v) : P v := by
  induction derived with
  | @intro name e depth form entity parents ih =>
      have own := h.entities name e entity
      rw [assemble]
      split
      · exact own
      · exact h.kept e _ own (List.forall_mem_map.mpr ih)

/-- Each form takes the place of the entity that it was derived from. It has the same parents, and
they have the same forms by induction. -/
theorem Derives.withEntities (h : g.Absorbing P) {r : OrderedMap String α}
    (forms : ∀ name d v, g.Derives name d v → r.get? name = some v) {name : String} {d : Nat}
    {v : α} (derived : g.Derives name d v) : (g.withEntities r).Derives name d v := by
  induction derived with
  | @intro name e depth form entity parents ih =>
      have here := forms name _ _ (.intro depth form entity parents)
      have again := assemble_assemble h (h.entities name e entity)
        (List.forall_mem_map.mpr fun p hp => (parents p hp).property h)
      have same := parents_assemble h e ((g.parents e).map form)
      generalize g.assemble e ((g.parents e).map form) = v at here again same ⊢
      rw [← same] at again ih ⊢
      have derived : (g.withEntities r).Derives name _ (g.assemble v ((g.parents v).map form)) :=
        .intro depth form here ih
      rw [again] at derived
      exact derived

/-- The answer lists what it has for each entity, in their order, also where a name comes twice. -/
theorem resolveAllFresh_gathers {r : OrderedMap String α} (returned : g.resolveAllFresh = .ok r) :
    r = g.entities.keys.filterMap fun name => (r.get? name).map (name, ·) := by
  rw [resolveAllFresh_eq] at returned
  cases result : (resolveEach g {} g.sortedNames).1 with
  | error fault => simp [result, Except.map] at returned
  | ok _ =>
      obtain ⟨sound, _, all⟩ := resolveEach_ok _ (.empty g) result
      rw [result] at returned
      obtain rfl := Except.ok.inj returned
      refine List.filterMap_congr fun name mem => ?_
      rw [(gather_spec _ _ fun name mem => ?_).2 name mem]
      have known := (g.entities.has_iff_mem_keys name).mpr mem
      obtain ⟨_, _, _, value, _⟩ :=
        sound.derived name (all name ((g.mem_sortedNames name).mpr known))
      simp [value]

/-- Where merging twice is merging once, all resolved forms resolve to themselves. -/
theorem resolveAllFresh_withEntities (h : g.Absorbing P) {r : OrderedMap String α}
    (returned : g.resolveAllFresh = .ok r) : (g.withEntities r).resolveAllFresh = .ok r := by
  obtain ⟨keys, values⟩ := resolveAllFresh_ok returned
  have forms : ∀ name d v, g.Derives name d v → r.get? name = some v := by
    intro name d v derived
    obtain ⟨_, _, derived', _, value⟩ := values name derived.known
    rw [value, (derived.unique derived').2]
  have derives : ∀ name, (g.withEntities r).entities.has name = true →
      ∃ d v, (g.withEntities r).Derives name d v ∧ (d : Int) ≤ g.maxDepth ∧
        r.get? name = some v := by
    intro name known
    rw [OrderedMap.has_iff_mem_keys, show (g.withEntities r).entities.keys =
      g.entities.keys from keys] at known
    obtain ⟨d, v, derived, within, value⟩ :=
      values name ((g.entities.has_iff_mem_keys name).mpr known)
    exact ⟨d, v, derived.withEntities h forms, within, value⟩
  obtain ⟨r', returned'⟩ := ((g.withEntities r).resolveAllFresh_isOk_iff).mpr fun name known => by
    obtain ⟨d, v, derived, within, _⟩ := derives name known
    exact ⟨d, v, derived, within⟩
  have same : ∀ name ∈ r.keys, r'.get? name = r.get? name := by
    intro name mem
    have known := ((g.withEntities r).entities.has_iff_mem_keys name).mpr mem
    obtain ⟨_, _, derived, _, value⟩ := derives name known
    obtain ⟨_, _, derived', _, value'⟩ := (resolveAllFresh_ok returned').2 name known
    rw [value, value', (derived.unique derived').2]
  have equal : r' = r := by
    calc r' = r.keys.filterMap fun name => (r'.get? name).map (name, ·) :=
      resolveAllFresh_gathers returned'
      _ = r.keys.filterMap fun name => (r.get? name).map (name, ·) :=
          List.filterMap_congr fun name mem => by rw [same name mem]
      _ = r := by
          rw [keys]
          exact (resolveAllFresh_gathers returned).symm
  rw [returned', equal]

end UiMarkup.Lineage
