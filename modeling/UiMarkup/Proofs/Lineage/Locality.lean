import UiMarkup.Proofs.Lineage.Idempotence

/-!
A call depends on no entity but those that its name reaches. Over other entities that are the same
on these, a visit makes the same decisions with the same memory, whether it succeeds or fails; what
else there is, however broken, is not looked at.
-/

namespace UiMarkup.Lineage

variable {α : Type} {g : Lineage α} {others : OrderedMap String α}

/-- Other entities are the same on all names that a root reaches: what is missing
is missing there, too. -/
def SameFrom (g : Lineage α) (root : String) (others : OrderedMap String α) : Prop :=
  ∀ x, g.Reaches root x → others.get? x = g.entities.get? x

theorem SameFrom.of_reaches {root name : String} (same : g.SameFrom root others)
    (reached : g.Reaches root name) :
    g.SameFrom name others := fun x further => same x (reached.trans further)

theorem SameFrom.here {root : String} (same : g.SameFrom root others) :
    others.get? root = g.entities.get? root :=
  same root .refl

theorem visitParents_withEntities {act act' : Memory α → String → Except (Failure α) (Memory α)}
    (path : List String) (child : String) (ps : List String) (same : ∀ p ∈ ps, g.SameFrom p others)
    (acts : ∀ p ∈ ps, ∀ m, act' m p = act m p) (m : Memory α) :
    visitParents (g.withEntities others) act' path child ps m =
      visitParents g act path child ps m := by
  induction ps generalizing m with
  | nil => rfl
  | cons p ps ih =>
      have later := ih (fun q hq => same q (List.mem_cons_of_mem p hq)) fun q hq =>
        acts q (List.mem_cons_of_mem p hq)
      have known : (g.withEntities others).entities.has p = g.entities.has p :=
        congrArg Option.isSome (same p List.mem_cons_self).here
      rw [visitParents, visitParents, known, acts p List.mem_cons_self]
      simp only [later]

/-- On the room below the depth: a visit goes on to parents, which reach no more
than the name itself. -/
theorem visit_withEntities (room : Nat) (path : List String) (m : Memory α) {name : String}
    (same : g.SameFrom name others) :
    visit (g.withEntities others) room path m name = visit g room path m name := by
  induction room generalizing path m name with
  | zero =>
      have here : (g.withEntities others).entities.get? name = g.entities.get? name := same.here
      rw [visit, visit, here]
  | succ room ih =>
      cases entity : g.entities.get? name with
      | none =>
          have here : (g.withEntities others).entities.get? name = none := same.here.trans entity
          simp only [visit, here, entity]
      | some e =>
          have here : (g.withEntities others).entities.get? name = some e := same.here.trans entity
          have above : ∀ p ∈ g.parents e, g.SameFrom p others := fun p hp =>
            same.of_reaches (.single ⟨e, entity, hp⟩)
          have parents := visitParents_withEntities (path ++ [name]) name (g.parents e) above
            (fun p hp m => ih (path ++ [name]) m (above p hp)) (m.mark name)
          rw [visit_succ entity, visit_succ here, ← parents]
          -- the name is left without a look at the entities
          rfl

/-- With nothing known before, a call has the same answer over other entities that are the
same on what it reaches. -/
theorem resolveFresh_withEntities {name : String} (same : g.SameFrom name others) :
    (g.withEntities others).resolveFresh name = g.resolveFresh name := by
  have here : (g.withEntities others).entities.has name = g.entities.has name :=
    congrArg Option.isSome same.here
  cases known : g.entities.has name with
  | false =>
      rw [resolveFresh, resolveFresh, resolve_of_unknown rfl known,
        resolve_of_unknown rfl (here.trans known)]
  | true =>
      rw [resolveFresh, resolveFresh, resolve_of_unmarked rfl known rfl,
        resolve_of_unmarked rfl (here.trans known) rfl]
      exact congrArg (fun visited => (answer name visited).1) (visit_withEntities _ _ _ same)

end UiMarkup.Lineage
