import UiMarkup.Proofs.Lineage.Faults

/-!
Where resolving all entities stops. The names are resolved in order, and the first one that fails
ends the call: its fault is true of the graph, and nothing is said about the names behind it.
-/

namespace UiMarkup.Lineage

variable {α : Type} {g : Lineage α} {m : Memory α} {name : String} {fault : Fault}

theorem not_blocked_of_clear (clear : ∀ x, m.marks.get? x ≠ some .visiting) (name : String) :
    ¬ g.Blocked m name :=
  fun ⟨x, _, visiting⟩ => clear x visiting

/-- As long as no name is left marked as being visited, a call that fails says what
is true of the graph. -/
theorem resolve_trueOf (sound : g.Sound m) (clear : ∀ x, m.marks.get? x ≠ some .visiting)
    (failed : (resolve g m name).1 = .error fault) : fault.TrueOf g name := by
  rcases resolve_cases sound name
    with ⟨_, _, h⟩ | ⟨unknown, h⟩ | ⟨known, unmarked, h⟩ | ⟨_, _, visiting, _⟩
  · rw [h] at failed
    cases failed
  · rw [h] at failed
    obtain rfl := Except.error.inj failed
    exact ⟨rfl, unknown⟩
  · have onPath : OnPath m [] :=
      fun x => ⟨fun visiting => absurd visiting (clear x), fun mem => by cases mem⟩
    have ended := (visit_sound g.maxDepth.toNat [] sound unmarked).and
      (visit_trueOf g.maxDepth.toNat sound (.nil g name) onPath unmarked known (by simp))
    rw [h] at failed
    generalize visit g g.maxDepth.toNat [] m name = result at failed ended
    cases result with
    | error failure =>
        obtain rfl := Except.error.inj failed
        exact ended.2
    | ok m' =>
        obtain ⟨⟨sound', _, mark⟩, _⟩ := ended
        obtain ⟨_, v, _, value, _⟩ := sound'.derived name mark
        simp [answer_ok value] at failed
  · exact absurd visiting (clear name)

/-- The first of some names that cannot be resolved, with a fault that is true of it. -/
structure FailsFirst (g : Lineage α) (names : List String) (name : String) (fault : Fault) :
    Prop where
  split : ∃ before after, names = before ++ name :: after ∧ ∀ n ∈ before, ∃ a,
    g.resolveFresh n = .ok a
  fails : ∀ a, g.resolveFresh name ≠ .ok a
  trueOf : fault.TrueOf g name

theorem resolve_eq_ok_iff_of_clear (sound : g.Sound m)
    (clear : ∀ x, m.marks.get? x ≠ some .visiting) (a : α) :
    (resolve g m name).1 = .ok a ↔ g.resolveFresh name = .ok a := by
  rw [resolve_eq_ok_iff sound, resolveFresh_eq_ok_iff]
  exact and_iff_left (not_blocked_of_clear clear name)

theorem resolveEach_failsFirst (names : List String) (sound : g.Sound m)
    (clear : ∀ x, m.marks.get? x ≠ some .visiting)
    (failed : (resolveEach g m names).1 = .error fault) :
    ∃ name, g.FailsFirst names name fault := by
  induction names generalizing m with
  | nil => cases failed
  | cons name names ih =>
      rw [resolveEach] at failed
      have sound' := (resolve_sound sound name).1
      have returns (a : α) := @resolve_eq_ok_iff_of_clear α g m name sound clear a
      have grows (a : α) := @resolve_ok α g m sound name a
      have fails (fault : Fault) := @resolve_trueOf α g m name fault sound clear
      generalize resolve g m name = answer at failed sound' returns grows fails
      obtain ⟨result, m'⟩ := answer
      cases result with
      | error found =>
          obtain rfl := Except.error.inj failed
          refine ⟨name, ⟨[], names, rfl, List.forall_mem_nil _⟩, fun a h => ?_, fails _ rfl⟩
          cases (returns a).mpr h
      | ok a =>
          have clear' : ∀ x, m'.marks.get? x ≠ some .visiting := fun x visiting =>
            clear x ((grows a rfl).1.visiting visiting)
          obtain ⟨first, ⟨before, after, rfl, resolved⟩, unresolved, trueOf⟩ :=
            ih sound' clear' failed
          refine ⟨first, ⟨name :: before, after, rfl, ?_⟩, unresolved, trueOf⟩
          exact List.forall_mem_cons.mpr ⟨⟨a, (returns a).mp rfl⟩, resolved⟩

/-- When not all entities can be resolved, the first one that cannot be is
the one with the fault. -/
theorem resolveAllFresh_failsFirst (failed : g.resolveAllFresh = .error fault) :
    ∃ name, g.entities.has name = true ∧ g.FailsFirst g.sortedNames name fault := by
  rw [resolveAllFresh_eq] at failed
  have failed' : (resolveEach g {} g.sortedNames).1 = .error fault := by
    cases h : (resolveEach g {} g.sortedNames).1 with
    | ok _ => simp [h, Except.map] at failed
    | error found => simpa [h, Except.map] using failed
  obtain ⟨name, hname⟩ :=
    resolveEach_failsFirst g.sortedNames (.empty g) (by simp [OrderedMap.get?]) failed'
  obtain ⟨before, after, names, -⟩ := hname.split
  exact ⟨name, (g.mem_sortedNames name).mp (names ▸ by simp), hname⟩

/-! ### Graphs without a kind of fault -/

theorem Complete.not_trueOf_notFound (complete : g.Complete) {parent child : String} :
    ¬ (Fault.notFound parent child).TrueOf g name := by
  rintro ⟨-, link, missing⟩
  rw [complete child parent link] at missing
  cases missing

theorem Acyclic.not_trueOf_circular (acyclic : g.Acyclic) {chain : List String} :
    ¬ (Fault.circular chain).TrueOf g name := by
  rintro ⟨path, again, rfl, -, linked, -, mem, -⟩
  have forward := (linked.imp fun _ _ => Relation.TransGen.single).pairwise
  exact acyclic again
    ((List.pairwise_append.mp forward).2.2 again mem again (List.mem_singleton_self again))

theorem Bounded.not_trueOf_tooDeep (bounded : g.Bounded) {first : String} :
    ¬ (Fault.tooDeep first).TrueOf g name := by
  rintro ⟨-, rest, chain, -, length⟩
  have := bounded _ chain
  omega

theorem not_trueOf_unknown (known : g.entities.has name = true) {missing : String} :
    ¬ (Fault.unknown missing).TrueOf g name := by
  rintro ⟨-, unknown⟩
  rw [known] at unknown
  cases unknown

end UiMarkup.Lineage
