import UiMarkup.Proofs.Lineage.Graph

/-!
The walk, told as a recursion: a name is visited by visiting the parents that are still unmarked,
one after the other, and is then resolved. Each visit goes one entity deeper, so the recursion is on
the room that the depth leaves. A visit unmarks no name, and the steps that it can take are counted
by the names still unmarked.
-/

namespace UiMarkup.Lineage

variable {α : Type}

def Memory.mark (m : Memory α) (name : String) : Memory α :=
  { m with marks := m.marks.put name .visiting }

/-- What is known once a name is resolved whose parents are. -/
def settle (g : Lineage α) (m : Memory α) (name : String) (e : α) : Memory α where
  marks := m.marks.put name .resolved
  depth := m.depth.put name (depthOf m (g.parents e))
  resolved := m.resolved.put name (combine g m e)

/-- Resolves a name whose parents are, unless its longest chain is too long. -/
def finish (g : Lineage α) (m : Memory α) (name : String) (e : α) : Except (Failure α) (Memory α) :=
  if g.maxDepth < depthOf m (g.parents e) then .error ⟨.tooDeep name, m⟩
  else .ok (g.settle m name e)

/-- Looks at parents in turn and visits those that are not marked. -/
def visitParents (g : Lineage α) (act : Memory α → String → Except (Failure α) (Memory α))
    (path : List String) (child : String) : List String → Memory α → Except (Failure α) (Memory α)
  | [], m => .ok m
  | p :: ps, m =>
    if g.entities.has p = false then .error ⟨.notFound p child, m⟩
    else
      match m.marks.get? p with
      | some .visiting => .error ⟨.circular (path ++ [p]), m⟩
      | some .resolved => visitParents g act path child ps m
      | none => (act m p).bind fun m => visitParents g act path child ps m

/-- Visits a name that is not marked, below the names on the path. -/
def visit (g : Lineage α) : Nat → List String → Memory α → String → Except (Failure α) (Memory α)
  | room, path, m, name =>
    match g.entities.get? name with
    | none => .error ⟨.unknown name, m⟩
    | some e =>
      match room with
      | 0 => .error ⟨.tooDeep (path.headD name), m.mark name⟩
      | room + 1 =>
        (visitParents g (visit g room (path ++ [name])) (path ++ [name]) name (g.parents e)
          (m.mark name)).bind fun m => finish g m name e

/-- Visits a name that an earlier walk has left marked. It is not put on the path again, and at the
end there is none to take it from. -/
def revisit (g : Lineage α) (m : Memory α) (name : String) (e : α) :
    Except (Failure α) (Memory α) :=
  (visitParents g (visit g g.maxDepth.toNat []) [] name (g.parents e) m).bind fun m =>
    (finish g m name e).bind fun m => .error ⟨.emptyPath, m⟩

theorem bind_eq_ok {ε β γ : Type} {r : Except ε β} {f : β → Except ε γ} {c : γ}
    (h : r.bind f = .ok c) : ∃ b, r = .ok b ∧ f b = .ok c := by
  cases r with
  | error _ => cases h
  | ok b => exact ⟨b, rfl, h⟩

theorem visit_succ {g : Lineage α} {name : String} {e : α} (entity : g.entities.get? name = some e)
    (room : Nat) (path : List String) (m : Memory α) :
    visit g (room + 1) path m name =
      (visitParents g (visit g room (path ++ [name])) (path ++ [name]) name (g.parents e)
        (m.mark name)).bind fun m => finish g m name e := by
  rw [visit]
  simp only [entity]

theorem visit_zero {g : Lineage α} {name : String} {e : α} (entity : g.entities.get? name = some e)
    (path : List String) (m : Memory α) :
    visit g 0 path m name = .error ⟨.tooDeep (path.headD name), m.mark name⟩ := by
  rw [visit]
  simp only [entity]

/-! Marks come and stay. -/

@[simp] theorem Memory.marks_mark (m : Memory α) (name x : String) :
    (m.mark name).marks.get? x = if x = name then some .visiting else m.marks.get? x :=
  OrderedMap.get?_put _ _ _ _

@[simp] theorem marks_settle (g : Lineage α) (m : Memory α) (name : String) (e : α) (x : String) :
    (g.settle m name e).marks.get? x = if x = name then some .resolved else m.marks.get? x :=
  OrderedMap.get?_put _ _ _ _

@[simp] theorem depth_settle (g : Lineage α) (m : Memory α) (name : String) (e : α) (x : String) :
    (g.settle m name e).depth.get? x =
      if x = name then some (depthOf m (g.parents e)) else m.depth.get? x :=
  OrderedMap.get?_put _ _ _ _

@[simp] theorem resolved_settle (g : Lineage α) (m : Memory α) (name : String) (e : α)
    (x : String) :
    (g.settle m name e).resolved.get? x =
      if x = name then some (combine g m e) else m.resolved.get? x :=
  OrderedMap.get?_put _ _ _ _

/-- What is marked in one memory is marked in the other. -/
def MarksKept (m m' : Memory α) : Prop := ∀ x, m.marks.has x = true → m'.marks.has x = true

theorem marksKept_mark (m : Memory α) (name : String) : MarksKept m (m.mark name) := by
  intro x hx
  by_cases h : x = name <;> simp_all [OrderedMap.has]

theorem marksKept_settle (g : Lineage α) (m : Memory α) (name : String) (e : α) :
    MarksKept m (g.settle m name e) := by
  intro x hx
  by_cases h : x = name <;> simp_all [OrderedMap.has]

theorem finish_ok {g : Lineage α} {m m' : Memory α} {name : String} {e : α}
    (h : finish g m name e = .ok m') :
    (depthOf m (g.parents e) : Int) ≤ g.maxDepth ∧ m' = g.settle m name e := by
  unfold finish at h
  split at h
  · cases h
  · exact ⟨by omega, (Except.ok.inj h).symm⟩

theorem visitParents_marksKept {g : Lineage α}
    {act : Memory α → String → Except (Failure α) (Memory α)}
    (kept : ∀ m p m', act m p = .ok m' → MarksKept m m') {path : List String} {child : String}
    (ps : List String) {m m' : Memory α} (h : visitParents g act path child ps m = .ok m') :
    MarksKept m m' := by
  induction ps generalizing m with
  | nil =>
      cases h
      exact fun _ hx => hx
  | cons p ps ih =>
      rw [visitParents] at h
      split at h
      · cases h
      · split at h
        · cases h
        · exact ih h
        · obtain ⟨m₁, h₁, h⟩ := bind_eq_ok h
          exact fun x hx => ih h x (kept _ _ _ h₁ x hx)

theorem visit_marksKept {g : Lineage α} (room : Nat) {path : List String} {m m' : Memory α}
    {name : String} (h : visit g room path m name = .ok m') : MarksKept m m' := by
  induction room generalizing path m m' name with
  | zero =>
      rw [visit] at h
      split at h <;> cases h
  | succ room ih =>
      rw [visit] at h
      split at h
      · cases h
      · obtain ⟨m₁, h₁, h⟩ := bind_eq_ok h
        have parents := visitParents_marksKept (fun _ _ _ => ih) _ h₁
        rw [(finish_ok h).2]
        exact fun x hx => marksKept_settle g m₁ name _ x (parents x (marksKept_mark m name x hx))

/-! The number of steps. -/

/-- The steps that the entities of certain names take: each looks once at each
parent, and is then left. -/
def load (g : Lineage α) (keep : String → Bool) : Nat :=
  ((g.entities.filter fun p => keep p.1).map fun p => (g.parents p.2).length + 1).foldr (· + ·) 0

/-- The steps that unmarked entities can still take. -/
def pending (g : Lineage α) (m : Memory α) : Nat := g.load fun name => !m.marks.has name

theorem stepBound_eq (g : Lineage α) : g.stepBound = g.load fun _ => true := by
  simp [stepBound, load]

theorem load_mono (g : Lineage α) {keep keep' : String → Bool}
    (sub : ∀ x, keep x = true → keep' x = true) : g.load keep ≤ g.load keep' := by
  unfold load
  induction g.entities with
  | nil => simp
  | cons p entities ih =>
      by_cases h : keep p.1 = true
      · simp only [List.filter_cons, h, sub _ h, if_true, List.map_cons, List.foldr_cons]
        omega
      · by_cases h' : keep' p.1 = true
        · simp only [List.filter_cons, h, h', Bool.false_eq_true, if_true, if_false, List.map_cons,
            List.foldr_cons]
          omega
        · simpa [List.filter_cons, h, h'] using ih

/-- An entity that only the larger set of names has adds its own steps. -/
theorem load_add_le (g : Lineage α) {keep keep' : String → Bool} {name : String} {e : α}
    (sub : ∀ x, keep x = true → keep' x = true) (out : keep name = false) (into : keep' name = true)
    (entity : g.entities.get? name = some e) :
    g.load keep + ((g.parents e).length + 1) ≤ g.load keep' := by
  obtain ⟨entities, parents, merge, maxDepth⟩ := g
  induction entities with
  | nil => simp [OrderedMap.get?] at entity
  | cons p entities ih =>
      have tail := load_mono ⟨entities, parents, merge, maxDepth⟩ sub
      simp only [load] at ih tail ⊢
      by_cases hp : p.1 = name
      · obtain rfl : p.2 = e := by simpa [OrderedMap.get?, hp] using entity
        simp only [List.filter_cons, hp, out, into, Bool.false_eq_true, if_true, if_false,
          List.map_cons, List.foldr_cons]
        omega
      · have rest := ih (by simpa [OrderedMap.get?, hp] using entity)
        by_cases h : keep p.1 = true
        · simp only [List.filter_cons, h, sub _ h, if_true, List.map_cons, List.foldr_cons]
          omega
        · by_cases h' : keep' p.1 = true
          · simp only [List.filter_cons, h, h', Bool.false_eq_true, if_true, if_false,
              List.map_cons, List.foldr_cons]
            omega
          · simpa [List.filter_cons, h, h'] using rest

theorem pending_mark_le {g : Lineage α} {m : Memory α} {name : String} {e : α}
    (unmarked : m.marks.get? name = none) (entity : g.entities.get? name = some e) :
    g.pending (m.mark name) + ((g.parents e).length + 1) ≤ g.pending m := by
  refine g.load_add_le ?_ ?_ ?_ entity
  · intro x hx
    by_cases h : x = name <;> simp_all [OrderedMap.has]
  · simp [OrderedMap.has]
  · simp [OrderedMap.has, unmarked]

/-- A marked entity leaves room for its own steps within the bound. -/
theorem pending_add_le_stepBound {g : Lineage α} {m : Memory α} {name : String} {e : α}
    (marked : m.marks.has name = true) (entity : g.entities.get? name = some e) :
    g.pending m + ((g.parents e).length + 1) ≤ g.stepBound := by
  rw [stepBound_eq]
  exact g.load_add_le (fun _ _ => rfl) (by simp [marked]) rfl entity

theorem pending_le_stepBound (g : Lineage α) (m : Memory α) : g.pending m ≤ g.stepBound := by
  rw [stepBound_eq]
  exact g.load_mono fun _ _ => rfl

end UiMarkup.Lineage
