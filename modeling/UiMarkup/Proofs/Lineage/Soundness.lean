import UiMarkup.Proofs.Lineage.Steps

/-!
What is known about the entities is right: a name marked as resolved has the length and the form
that the graph derives, and so have its parents. No visit breaks this, also when it fails. A visit
marks only names that it reaches; when it does not fail all of these are resolved.
-/

namespace UiMarkup.Lineage

variable {α : Type} {g : Lineage α}

/-- One property holds of what is known after a success, another of a failure. -/
def Ends (known : Memory α → Prop) (failed : Failure α → Prop) :
    Except (Failure α) (Memory α) → Prop
  | .ok m => known m
  | .error failure => failed failure

theorem Ends.mono {P P' : Memory α → Prop} {Q Q' : Failure α → Prop}
    {r : Except (Failure α) (Memory α)} (h : Ends P Q r) (known : ∀ m, P m → P' m)
    (failed : ∀ f, Q f → Q' f) : Ends P' Q' r := by
  cases r with
  | error _ => exact failed _ h
  | ok _ => exact known _ h

theorem Ends.and {P P' : Memory α → Prop} {Q Q' : Failure α → Prop}
    {r : Except (Failure α) (Memory α)} (h : Ends P Q r) (h' : Ends P' Q' r) :
    Ends (fun m => P m ∧ P' m) (fun f => Q f ∧ Q' f) r := by
  cases r with
  | error _ => exact ⟨h, h'⟩
  | ok _ => exact ⟨h, h'⟩

theorem Ends.bind {P P' : Memory α → Prop} {Q : Failure α → Prop}
    {r : Except (Failure α) (Memory α)} {f : Memory α → Except (Failure α) (Memory α)}
    (first : Ends P Q r) (second : ∀ m, P m → Ends P' Q (f m)) : Ends P' Q (r.bind f) := by
  cases r with
  | error failure => exact first
  | ok m => exact second m first

structure Sound (g : Lineage α) (m : Memory α) : Prop where
  derived : ∀ name, m.marks.get? name = some .resolved → ∃ d v, m.depth.get? name = some d ∧
    m.resolved.get? name = some v ∧ g.Derives name d v ∧ (d : Int) ≤ g.maxDepth
  closed : ∀ name parent, m.marks.get? name = some .resolved → g.Parent name parent →
    m.marks.get? parent = some .resolved
  marked : ∀ name v, m.resolved.get? name = some v → m.marks.get? name = some .resolved

/-- One memory has the marks of another and, besides, names marked as
resolved that a root reaches. -/
structure Grows (g : Lineage α) (root : String) (m m' : Memory α) : Prop where
  kept : ∀ x mark, m.marks.get? x = some mark → m'.marks.get? x = some mark
  added : ∀ x, m.marks.get? x = none →
    m'.marks.get? x = none ∨ m'.marks.get? x = some .resolved ∧ g.Reaches root x

/-- One memory differs from another only on names that a root reaches, and what
was resolved still is. -/
structure Local (g : Lineage α) (root : String) (m m' : Memory α) : Prop where
  resolved : ∀ x, m.marks.get? x = some .resolved → m'.marks.get? x = some .resolved
  beyond : ∀ x, ¬ g.Reaches root x → m'.marks.get? x = m.marks.get? x

/-- What a visit to an unmarked name ends with. -/
def Visited (g : Lineage α) (name : String) (m : Memory α) : Except (Failure α) (Memory α) → Prop :=
  Ends (fun m' => g.Sound m' ∧ g.Grows name m m' ∧ m'.marks.get? name = some .resolved)
    (fun failure => g.Sound failure.memory ∧ g.Local name m failure.memory)

/-- Some name that is reached is marked as being visited. -/
def Blocked (g : Lineage α) (m : Memory α) (name : String) : Prop :=
  ∃ x, g.Reaches name x ∧ m.marks.get? x = some .visiting

namespace Grows

theorem refl (g : Lineage α) (root : String) (m : Memory α) : g.Grows root m m :=
  ⟨fun _ _ h => h, fun _ h => .inl h⟩

theorem trans {root : String} {m₁ m₂ m₃ : Memory α} (first : g.Grows root m₁ m₂)
    (second : g.Grows root m₂ m₃) : g.Grows root m₁ m₃ := by
  refine ⟨fun x mark h => second.kept x mark (first.kept x mark h), fun x h => ?_⟩
  rcases first.added x h with h₂ | ⟨h₂, reached⟩
  · exact second.added x h₂
  · exact .inr ⟨second.kept x _ h₂, reached⟩

theorem of_parent {child parent : String} {m m' : Memory α} (h : g.Grows parent m m')
    (link : g.Parent child parent) : g.Grows child m m' :=
  ⟨h.kept, fun x hx => (h.added x hx).imp_right fun ⟨mark, reached⟩ => ⟨mark, .head link reached⟩⟩

/-- No name is newly marked as being visited. -/
theorem visiting {root x : String} {m m' : Memory α} (h : g.Grows root m m')
    (visiting : m'.marks.get? x = some .visiting) : m.marks.get? x = some .visiting := by
  cases old : m.marks.get? x with
  | none => rcases h.added x old with new | ⟨new, _⟩ <;> simp [new] at visiting
  | some mark =>
      rw [h.kept x mark old] at visiting
      exact visiting

/-- What the names of a visit and of the parents' visits come to when the visited
name is resolved at last. -/
theorem of_visit {name : String} {m m' : Memory α} {e : α} (unmarked : m.marks.get? name = none)
    (parents : g.Grows name (m.mark name) m') : g.Grows name m (g.settle m' name e) := by
  refine ⟨fun x mark h => ?_, fun x h => ?_⟩
  · have hx : x ≠ name := by rintro rfl; simp [unmarked] at h
    simpa [hx] using parents.kept x mark (by simpa [hx] using h)
  · by_cases hx : x = name
    · subst hx
      exact .inr ⟨by simp, .refl⟩
    · simpa [hx] using parents.added x (by simpa [hx] using h)

end Grows

namespace Local

theorem refl (g : Lineage α) (root : String) (m : Memory α) : g.Local root m m :=
  ⟨fun _ h => h, fun _ _ => rfl⟩

theorem trans {root : String} {m₁ m₂ m₃ : Memory α} (first : g.Local root m₁ m₂)
    (second : g.Local root m₂ m₃) : g.Local root m₁ m₃ :=
  ⟨fun x h => second.resolved x (first.resolved x h),
    fun x h => (second.beyond x h).trans (first.beyond x h)⟩

theorem of_parent {child parent : String} {m m' : Memory α} (h : g.Local parent m m')
    (link : g.Parent child parent) : g.Local child m m' :=
  ⟨h.resolved, fun x hx => h.beyond x fun reached => hx (.head link reached)⟩

theorem of_grows {root : String} {m m' : Memory α} (h : g.Grows root m m') : g.Local root m m' := by
  refine ⟨fun x => h.kept x _, fun x hx => ?_⟩
  cases old : m.marks.get? x with
  | some mark => exact h.kept x mark old
  | none =>
      rcases h.added x old with new | ⟨_, reached⟩
      · exact new
      · exact absurd reached hx

theorem mark {name : String} {m : Memory α} (unmarked : m.marks.get? name = none) :
    g.Local name m (m.mark name) := by
  refine ⟨fun x h => ?_, fun x hx => ?_⟩
  · have : x ≠ name := by rintro rfl; simp [unmarked] at h
    simpa [this] using h
  · have : x ≠ name := by rintro rfl; exact hx .refl
    simp [this]

theorem settle (m : Memory α) (name : String) (e : α) : g.Local name m (g.settle m name e) := by
  refine ⟨fun x h => ?_, fun x hx => ?_⟩
  · by_cases same : x = name <;> simp [same, h]
  · have : x ≠ name := by rintro rfl; exact hx .refl
    simp [this]

end Local

namespace Sound

variable {m : Memory α}

theorem empty (g : Lineage α) : g.Sound ({} : Memory α) := by
  refine ⟨?_, ?_, ?_⟩ <;> intros <;> simp_all [OrderedMap.get?]

theorem mark {name : String} (sound : g.Sound m) (unmarked : m.marks.get? name = none) :
    g.Sound (m.mark name) := by
  refine ⟨fun x h => ?_, fun x p h link => ?_, fun x v h => ?_⟩
  · by_cases hx : x = name
    · simp [hx] at h
    · exact sound.derived x (by simpa [hx] using h)
  · by_cases hx : x = name
    · simp [hx] at h
    · have hp := sound.closed x p (by simpa [hx] using h) link
      have : p ≠ name := by rintro rfl; simp [unmarked] at hp
      simpa [this] using hp
  · have hv := sound.marked x v h
    have : x ≠ name := by rintro rfl; simp [unmarked] at hv
    simpa [this] using hv

/-- All that a resolved name reaches is resolved. -/
theorem of_reaches {name x : String} (sound : g.Sound m)
    (resolved : m.marks.get? name = some .resolved) (reached : g.Reaches name x) :
    m.marks.get? x = some .resolved := by
  induction reached with
  | refl => exact resolved
  | tail _ link ih => exact sound.closed _ _ ih link

theorem not_blocked {name : String} (sound : g.Sound m)
    (resolved : m.marks.get? name = some .resolved) : ¬ g.Blocked m name := by
  rintro ⟨x, reached, visiting⟩
  simp [sound.of_reaches resolved reached] at visiting

theorem derives_combine {name : String} {e : α} (sound : g.Sound m)
    (entity : g.entities.get? name = some e)
    (parents : ∀ p ∈ g.parents e, m.marks.get? p = some .resolved) :
    g.Derives name (depthOf m (g.parents e)) (combine g m e) := by
  have known : ∀ p ∈ g.parents e,
      g.Derives p ((m.depth.get? p).getD 0) ((m.resolved.get? p).getD e) ∧
      m.resolved.get? p = some ((m.resolved.get? p).getD e) := by
    intro p hp
    obtain ⟨d, v, depth, value, derived, _⟩ := sound.derived p (parents p hp)
    simpa [depth, value] using derived
  have values : (g.parents e).filterMap m.resolved.get? =
      (g.parents e).map fun p => (m.resolved.get? p).getD e := by
    rw [List.filterMap_congr fun p hp => (known p hp).2]
    exact congrFun List.filterMap_eq_map' _
  have form : combine g m e =
      g.assemble e ((g.parents e).map fun p => (m.resolved.get? p).getD e) := by
    rw [← values]
    unfold combine assemble
    cases g.parents e <;> rfl
  rw [form]
  exact .intro _ _ entity fun p hp => (known p hp).1

theorem settle {name : String} {e : α} (sound : g.Sound m) (entity : g.entities.get? name = some e)
    (parents : ∀ p ∈ g.parents e, m.marks.get? p = some .resolved)
    (deep : (depthOf m (g.parents e) : Int) ≤ g.maxDepth) : g.Sound (g.settle m name e) := by
  refine ⟨fun x h => ?_, fun x p h link => ?_, fun x v h => ?_⟩
  · by_cases hx : x = name
    · subst hx
      exact ⟨_, _, by simp, by simp, sound.derives_combine entity parents, deep⟩
    · simpa [hx] using sound.derived x (by simpa [hx] using h)
  · by_cases hp : p = name
    · simp [hp]
    · by_cases hx : x = name
      · subst hx
        obtain ⟨e', entity', mem⟩ := link
        obtain rfl : e = e' := by simpa [entity] using entity'
        simpa [hp] using parents p mem
      · simpa [hp] using sound.closed x p (by simpa [hx] using h) link
  · by_cases hx : x = name
    · simp [hx]
    · simpa [hx] using sound.marked x v (by simpa [hx] using h)

end Sound

theorem finish_sound {m : Memory α} {name : String} {e : α} (sound : g.Sound m)
    (entity : g.entities.get? name = some e)
    (parents : ∀ p ∈ g.parents e, m.marks.get? p = some .resolved) :
    Ends (fun m' => g.Sound m' ∧ m' = g.settle m name e) (fun failure => failure.memory = m)
      (finish g m name e) := by
  unfold finish
  split
  · rfl
  · exact ⟨sound.settle entity parents (by omega), rfl⟩

/-- Looking at parents keeps what is known right, when each visit does. -/
theorem visitParents_sound {act : Memory α → String → Except (Failure α) (Memory α)}
    (acts : ∀ m p, g.Sound m → m.marks.get? p = none → g.Visited p m (act m p))
    (path : List String) {child : String} (ps : List String) (links : ∀ p ∈ ps, g.Parent child p)
    {m : Memory α} (sound : g.Sound m) :
    Ends (fun m' => g.Sound m' ∧ g.Grows child m m' ∧ ∀ p ∈ ps, m'.marks.get? p = some .resolved)
      (fun failure => g.Sound failure.memory ∧ g.Local child m failure.memory)
      (visitParents g act path child ps m) := by
  induction ps generalizing m with
  | nil => exact ⟨sound, .refl g child m, by simp⟩
  | cons p ps ih =>
      have link := links p (by simp)
      have later : ∀ {m' : Memory α}, g.Sound m' → g.Grows child m m' →
          m'.marks.get? p = some .resolved →
          Ends (fun m' => g.Sound m' ∧ g.Grows child m m' ∧ ∀ q ∈ p :: ps,
            m'.marks.get? q = some .resolved)
            (fun failure => g.Sound failure.memory ∧ g.Local child m failure.memory)
            (visitParents g act path child ps m') := by
        intro m' sound' grows' here
        refine (ih (fun q hq => links q (List.mem_cons_of_mem _ hq)) sound').mono ?_ ?_
        · rintro m'' ⟨sound'', grows'', all⟩
          exact ⟨sound'', grows'.trans grows'',
            List.forall_mem_cons.mpr ⟨grows''.kept p _ here, all⟩⟩
        · rintro failure ⟨sound'', nearby⟩
          exact ⟨sound'', (Local.of_grows grows').trans nearby⟩
      rw [visitParents]
      split
      · exact ⟨sound, .refl g child m⟩
      · split
        · exact ⟨sound, .refl g child m⟩
        · next here => exact later sound (.refl g child m) here
        · next unmarked =>
          refine ((acts m p sound unmarked).mono (fun _ h => h) ?_).bind ?_
          · rintro failure ⟨sound', nearby⟩
            exact ⟨sound', nearby.of_parent link⟩
          · rintro m' ⟨sound', grows', here⟩
            exact later sound' (grows'.of_parent link) here

/-- A visit keeps what is known right. When it does not fail its name is resolved, and when it fails
only names that it reaches have other marks. -/
theorem visit_sound (room : Nat) (path : List String) {m : Memory α} {name : String}
    (sound : g.Sound m) (unmarked : m.marks.get? name = none) :
    g.Visited name m (visit g room path m name) := by
  induction room generalizing path m name with
  | zero =>
      rw [visit]
      split
      · exact ⟨sound, .refl g name m⟩
      · exact ⟨sound.mark unmarked, .mark unmarked⟩
  | succ room ih =>
      cases entity : g.entities.get? name with
      | none =>
          rw [visit]
          simp only [entity]
          exact ⟨sound, .refl g name m⟩
      | some e =>
          rw [visit_succ entity]
          have parents := visitParents_sound (fun m p => ih (path ++ [name])) (path ++ [name])
            (g.parents e) (fun p hp => ⟨e, entity, hp⟩) (sound.mark unmarked)
          refine (parents.mono (fun _ h => h) ?_).bind ?_
          · rintro failure ⟨sound', nearby⟩
            exact ⟨sound', (Local.mark unmarked).trans nearby⟩
          · rintro m₁ ⟨sound₁, grows₁, all⟩
            refine (finish_sound sound₁ entity all).mono ?_ ?_
            · rintro m₂ ⟨sound₂, rfl⟩
              exact ⟨sound₂, .of_visit unmarked grows₁, by simp⟩
            · rintro failure rfl
              exact ⟨sound₁, (Local.mark unmarked).trans (.of_grows grows₁)⟩

end UiMarkup.Lineage
