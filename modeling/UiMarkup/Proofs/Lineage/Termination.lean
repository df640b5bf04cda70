import UiMarkup.Proofs.Lineage.Faults
import UiMarkup.Proofs.Outcome

/-!
The loop behind a resolved name, told without a bound on its steps. It ends for every graph, also
for one with cycles or missing parents: each entity comes onto the stack once at the most, and while
it is there the loop looks once at each of its parents before it takes it off.
-/

namespace UiMarkup.Lineage

variable {α : Type} {g : Lineage α}

/-- The names by which one stack is taller than another. -/
def pushed (w w' : Walk α) : List String :=
  (w'.stack.take (w'.stack.length - w.stack.length)).map Prod.fst

/-- The loop from a walk on: how often its body is run, the names that come onto the stack,
and what it ends with. -/
inductive Loops (g : Lineage α) : Walk α → Nat → List String → Except (Failure α) (Memory α) → Prop
  | done {w : Walk α} (empty : w.stack = []) : Loops g w 0 [] (.ok w.memory)
  | fail {w : Walk α} {name : String} {index : Nat} {below : List (String × Nat)}
      {failure : Failure α} (top : w.stack = (name, index) :: below)
      (fails : step g w name index below = .error failure) :
      Loops g w 1 [] (.error failure)
  | next {w w' : Walk α} {name : String} {index : Nat} {below : List (String × Nat)} {count : Nat}
      {names : List String} {r : Except (Failure α) (Memory α)}
      (top : w.stack = (name, index) :: below) (steps : step g w name index below = .ok w')
      (more : Loops g w' count names r) :
      Loops g w (count + 1) (pushed w w' ++ names) r

/-- Steps that end are those of the loop. -/
theorem Runs.exists_loops {count : Nat} {w : Walk α} {r : Except (Failure α) (Walk α)}
    (h : Runs g count w r) (ended : ∀ w', r = .ok w' → w'.stack = []) :
    ∃ names, Loops g w count names (r.map Walk.memory) := by
  induction h with
  | stay w => exact ⟨[], .done (ended w rfl)⟩
  | fail top fails => exact ⟨[], .fail top fails⟩
  | next top steps _ ih =>
      obtain ⟨names, loops⟩ := ih ended
      exact ⟨_, .next top steps loops⟩

/-! ### What a step puts on the stack -/

/-- A name whose parents are being looked at is marked. -/
def Entered (w : Walk α) : Prop := ∀ p ∈ w.stack, p.2 ≠ 0 → w.memory.marks.has p.1 = true

/-- What a step makes of a walk: marks come and stay, among them that of the name on top, and at
most one name comes onto the stack, which is known and has no mark yet. -/
structure Advances (g : Lineage α) (name : String) (w w' : Walk α) : Prop where
  kept : MarksKept w.memory w'.memory
  marked : w'.memory.marks.has name = true
  entered : Entered w'
  pushes : pushed w w' = [] ∨ ∃ p, pushed w w' = [p] ∧ g.entities.has p = true ∧
    w'.memory.marks.has p = false ∧ w'.stack.head? = some (p, 0)

theorem enter_eq_ok {w w' : Walk α} {name : String} {index : Nat}
    (entered : enter g w name index = .ok w') (later : index ≠ 0 → w.memory.marks.has name = true) :
    MarksKept w.memory w'.memory ∧ w'.memory.marks.has name = true ∧ w'.stack = w.stack := by
  unfold enter at entered
  split at entered
  · dsimp only at entered
    split at entered
    · cases entered
    · obtain rfl := Except.ok.inj entered
      refine ⟨marksKept_mark w.memory name, ?_, rfl⟩
      simp [OrderedMap.has, OrderedMap.get?_put]
  · next old =>
    obtain rfl := Except.ok.inj entered
    refine ⟨fun _ hx => hx, ?_, rfl⟩
    by_cases first : index = 0
    · by_contra unmarked
      exact old ⟨first, by simpa using unmarked⟩
    · exact later first

theorem visitParent_advances {w w' : Walk α} {name parent : String} {index : Nat}
    {below : List (String × Nat)} (top : w.stack = (name, index) :: below)
    (entered : ∀ p ∈ below, p.2 ≠ 0 → w.memory.marks.has p.1 = true)
    (marked : w.memory.marks.has name = true)
    (visited : visitParent g w name index parent below = .ok w') :
    Advances g name w w' := by
  have deeper : ∀ p ∈ (name, index + 1) :: below, p.2 ≠ 0 → w.memory.marks.has p.1 = true :=
    List.forall_mem_cons.mpr ⟨fun _ => marked, entered⟩
  unfold visitParent at visited
  split at visited
  · cases visited
  · next present =>
    dsimp only at visited
    split at visited
    · cases visited
    · obtain rfl := Except.ok.inj visited
      exact ⟨fun _ hx => hx, marked, deeper, .inl (by simp [pushed, top])⟩
    · next unmarked =>
      obtain rfl := Except.ok.inj visited
      refine ⟨fun _ hx => hx, marked, List.forall_mem_cons.mpr ⟨fun h => absurd rfl h, deeper⟩,
        .inr ⟨parent, ?_⟩⟩
      exact ⟨by simp [pushed, top], by simpa using present, by simp [OrderedMap.has, unmarked], rfl⟩

theorem leave_advances {w w' : Walk α} {name : String} {index : Nat} {e : α}
    {below : List (String × Nat)} (top : w.stack = (name, index) :: below)
    (entered : ∀ p ∈ below, p.2 ≠ 0 → w.memory.marks.has p.1 = true)
    (left : leave g w name e below = .ok w') : Advances g name w w' := by
  rw [leave_eq] at left
  split at left
  · cases left
  · next m finished =>
    obtain ⟨-, rfl⟩ := finish_ok finished
    split at left
    · cases left
    · obtain rfl := Except.ok.inj left
      have kept := marksKept_settle g w.memory name e
      exact ⟨kept, by simp [OrderedMap.has], fun p hp later => kept p.1 (entered p hp later),
        .inl (by simp [pushed, top])⟩

theorem step_advances {w w' : Walk α} {name : String} {index : Nat} {below : List (String × Nat)}
    (top : w.stack = (name, index) :: below) (entered : Entered w)
    (steps : step g w name index below = .ok w') : Advances g name w w' := by
  rw [Entered, top, List.forall_mem_cons] at entered
  unfold step at steps
  split at steps
  · cases steps
  · next e entity =>
    obtain ⟨w₁, entering, steps⟩ := bind_eq_ok steps
    obtain ⟨kept, marked, stack⟩ := enter_eq_ok entering entered.1
    have entered₁ : ∀ p ∈ below, p.2 ≠ 0 → w₁.memory.marks.has p.1 = true :=
      fun p hp later => kept p.1 (entered.2 p hp later)
    have advances : Advances g name w₁ w' := by
      split at steps
      · exact visitParent_advances (stack.trans top) entered₁ marked steps
      · exact leave_advances (stack.trans top) entered₁ steps
    have same : pushed w w' = pushed w₁ w' := by rw [pushed, pushed, stack]
    exact ⟨fun x hx => advances.kept x (kept x hx), advances.marked, advances.entered,
      same ▸ advances.pushes⟩

/-! ### What the loop puts on the stack -/

/-- No name comes onto the stack twice. One that is to come has no mark so far, and
is not the name on top. -/
theorem Loops.names {w : Walk α} {count : Nat} {names : List String}
    {r : Except (Failure α) (Memory α)} (h : Loops g w count names r) (entered : Entered w) :
    names.Nodup ∧ ∀ x ∈ names, g.entities.has x = true ∧ w.memory.marks.has x = false ∧
      ∀ index, w.stack.head? ≠ some (x, index) := by
  induction h with
  | done _ => exact ⟨.nil, List.forall_mem_nil _⟩
  | fail _ _ => exact ⟨.nil, List.forall_mem_nil _⟩
  | @next w w' name index below count names r top steps _ ih =>
      have advances := step_advances top entered steps
      obtain ⟨nodup, later⟩ := ih advances.entered
      -- a name without a mark after the step had none before it, and is not the one
      -- that the step has marked
      have before : ∀ x, w'.memory.marks.has x = false →
          w.memory.marks.has x = false ∧ ∀ index, w.stack.head? ≠ some (x, index) := by
        intro x unmarked
        constructor
        · by_contra marked
          simp [advances.kept x (by simpa using marked)] at unmarked
        · intro index head
          obtain rfl : name = x := by
            rw [top, List.head?_cons, Option.some.injEq, Prod.mk.injEq] at head
            exact head.1
          simp [advances.marked] at unmarked
      have rest : ∀ x ∈ names, g.entities.has x = true ∧ w.memory.marks.has x = false ∧
          ∀ index, w.stack.head? ≠ some (x, index) :=
        fun x hx => ⟨(later x hx).1, before x (later x hx).2.1⟩
      obtain none_pushed | ⟨p, one_pushed, known, unmarked, head⟩ := advances.pushes
      · rw [none_pushed, List.nil_append]
        exact ⟨nodup, rest⟩
      · have new : p ∉ names := fun mem => (later p mem).2.2 0 head
        rw [one_pushed, List.singleton_append, List.forall_mem_cons]
        exact ⟨List.nodup_cons.mpr ⟨new, nodup⟩, ⟨known, before p unmarked⟩, rest⟩

/-- With nothing known before, resolving a name ends. The body of its loop is run no more often than
there are entities and parents listed by them, and each entity comes onto the stack once at the
most, the name itself as the first. -/
theorem resolve_stops (g : Lineage α) {name : String} (known : g.entities.has name = true) :
    ∃ count names r, g.Loops ⟨{}, [], [(name, 0)]⟩ count names r ∧
      count ≤ (g.entities.map fun p => (g.parents p.2).length + 1).sum ∧
      (name :: names).Nodup ∧ (∀ x ∈ name :: names, g.entities.has x = true) ∧
      resolve g {} name = answer name r := by
  have bound := g.pending_le_stepBound {}
  obtain ⟨count, runs, le⟩ :=
    performs_visit (g := g) (m := {}) g.maxDepth.toNat [] [] (by simp) rfl known
  have ended : ∀ w', (visit g g.maxDepth.toNat [] {} name).map (fun m => (⟨m, [], []⟩ : Walk α)) =
      .ok w' → w'.stack = [] := by
    intro w' hw'
    obtain ⟨m, -, rfl⟩ := map_eq_ok_iff.mp hw'
    rfl
  obtain ⟨names, loops⟩ := runs.exists_loops ended
  have whole : ((visit g g.maxDepth.toNat [] {} name).map fun m => (⟨m, [], []⟩ : Walk α)).map
      Walk.memory = visit g g.maxDepth.toNat [] {} name := by
    cases visit g g.maxDepth.toNat [] {} name <;> rfl
  rw [whole] at loops
  have entered : Entered (⟨{}, [], [(name, 0)]⟩ : Walk α) := by
    intro p hp later
    obtain rfl := List.mem_singleton.mp hp
    exact absurd rfl later
  obtain ⟨nodup, each⟩ := loops.names entered
  have first : name ∉ names := fun mem => (each name mem).2.2 0 rfl
  refine ⟨count, names, _, loops, ?_, List.nodup_cons.mpr ⟨first, nodup⟩, ?_,
    resolve_of_unmarked rfl known rfl⟩
  · exact (Nat.le_of_add_right_le le).trans bound
  · exact List.forall_mem_cons.mpr ⟨known, fun x mem => (each x mem).1⟩

/-- From a name that leads into a cycle, in a graph of four entities that list four parents. -/
theorem resolve_stops_knot : knot.entities.has "a" = true ∧
    ∃ count names r, knot.Loops ⟨{}, [], [("a", 0)]⟩ count names r ∧ count ≤ 8 ∧
      ("a" :: names).Nodup ∧
      (∀ x ∈ "a" :: names, knot.entities.has x = true) ∧ knot.resolve {} "a" = answer "a" r :=
  ⟨by decide, resolve_stops knot (by decide)⟩

end UiMarkup.Lineage
