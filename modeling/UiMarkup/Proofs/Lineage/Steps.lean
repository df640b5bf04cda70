import UiMarkup.Proofs.Lineage.Visit

/-!
The walk with its explicit stack takes the steps of the recursive visit. `resolve_of_unmarked` and
`resolve_of_visiting` say what resolving a name comes to; that the bound on the steps is never
reached is part of their proofs.
-/

namespace UiMarkup.Lineage

variable {α : Type} {g : Lineage α}

/-- So many steps lead from a walk to a walk, or the last of them fails. -/
inductive Runs (g : Lineage α) : Nat → Walk α → Except (Failure α) (Walk α) → Prop
  | stay (w : Walk α) : Runs g 0 w (.ok w)
  | fail {w : Walk α} {name : String} {index : Nat} {below : List (String × Nat)}
      {failure : Failure α} (top : w.stack = (name, index) :: below)
      (fails : step g w name index below = .error failure) :
      Runs g 1 w (.error failure)
  | next {w w' : Walk α} {name : String} {index : Nat} {below : List (String × Nat)} {count : Nat}
      {r : Except (Failure α) (Walk α)} (top : w.stack = (name, index) :: below)
      (steps : step g w name index below = .ok w') (more : Runs g count w' r) :
      Runs g (count + 1) w r

theorem Runs.trans {count more : Nat} {w w' : Walk α} {r : Except (Failure α) (Walk α)}
    (first : Runs g count w (.ok w')) (second : Runs g more w' r) : Runs g (count + more) w r := by
  generalize hr : (Except.ok w' : Except (Failure α) (Walk α)) = mid at first
  induction first with
  | stay w =>
      obtain rfl := Except.ok.inj hr
      simpa using second
  | fail top fails => cases hr
  | @next _ _ _ _ _ count _ top steps _ ih =>
      rw [Nat.add_right_comm]
      exact .next top steps (ih hr)

/-- Two walks whose first step is the same run alike. -/
theorem Runs.congr_step {count : Nat} {w w' : Walk α} {name : String} {index : Nat}
    {below : List (String × Nat)} {r : Except (Failure α) (Walk α)}
    (top : w.stack = (name, index) :: below) (top' : w'.stack = (name, index) :: below)
    (same : step g w name index below = step g w' name index below) (h : Runs g (count + 1) w' r) :
    Runs g (count + 1) w r := by
  cases h with
  | fail top₁ fails =>
      obtain ⟨⟨rfl, rfl⟩, rfl⟩ : (_ ∧ _) ∧ _ := by simpa using top₁.symm.trans top'
      exact .fail top (same.trans fails)
  | next top₁ steps more =>
      obtain ⟨⟨rfl, rfl⟩, rfl⟩ : (_ ∧ _) ∧ _ := by simpa using top₁.symm.trans top'
      exact .next top (same.trans steps) more

theorem run_of_runs_ok {count fuel : Nat} {w w' : Walk α} (h : Runs g count w (.ok w'))
    (ended : w'.stack = []) (enough : count ≤ fuel) : run g fuel w = .ok w'.memory := by
  generalize hr : (Except.ok w' : Except (Failure α) (Walk α)) = r at h
  induction h generalizing fuel with
  | stay w =>
      obtain rfl := Except.ok.inj hr
      simp [run, ended]
  | fail top fails => cases hr
  | next top steps _ ih =>
      obtain ⟨fuel, rfl⟩ : ∃ k, fuel = k + 1 := ⟨fuel - 1, by omega⟩
      rw [run, top]
      simp only [steps]
      exact ih (by omega) hr

theorem run_of_runs_error {count fuel : Nat} {w : Walk α} {failure : Failure α}
    (h : Runs g count w (.error failure)) (enough : count ≤ fuel) :
    run g fuel w = .error failure := by
  generalize hr : (Except.error failure : Except (Failure α) (Walk α)) = r at h
  induction h generalizing fuel with
  | stay w => cases hr
  | fail top fails =>
      obtain rfl := Except.error.inj hr
      obtain ⟨fuel, rfl⟩ : ∃ k, fuel = k + 1 := ⟨fuel - 1, by omega⟩
      rw [run, top]
      simp only [fails]
      rfl
  | next top steps _ ih =>
      obtain ⟨fuel, rfl⟩ : ∃ k, fuel = k + 1 := ⟨fuel - 1, by omega⟩
      rw [run, top]
      simp only [steps]
      exact ih (by omega) hr

/-! One step of each kind. -/

theorem enter_of_marked {w : Walk α} {name : String} (marked : w.memory.marks.has name = true)
    (index : Nat) : enter g w name index = .ok w := by
  simp [enter, marked]

theorem step_parent (w : Walk α) (below : List (String × Nat)) {name p : String} {index : Nat}
    {e : α} (entity : g.entities.get? name = some e) (marked : w.memory.marks.has name = true)
    (parent : (g.parents e)[index]? = some p) :
    step g w name index below = visitParent g w name index p below := by
  simp only [step, entity, enter_of_marked marked]
  simp [bind, Except.bind, parent]

theorem step_leave (w : Walk α) (below : List (String × Nat)) {name : String} {index : Nat} {e : α}
    (entity : g.entities.get? name = some e) (marked : w.memory.marks.has name = true)
    (ended : (g.parents e)[index]? = none) :
    step g w name index below = leave g w name e below := by
  simp only [step, entity, enter_of_marked marked]
  simp [bind, Except.bind, ended]

/-- An unmarked name goes on the path. -/
theorem enter_of_unmarked {m : Memory α} {path : List String} {stack : List (String × Nat)}
    {name : String} (unmarked : m.marks.get? name = none) :
    enter g ⟨m, path, stack⟩ name 0 =
      if g.maxDepth < (path.length : Int) + 1 then .error ⟨.tooDeep (path.headD name), m.mark name⟩
      else .ok ⟨m.mark name, path ++ [name], stack⟩ := by
  have head : (path ++ [name]).headD name = path.headD name := by cases path <;> rfl
  simp only [enter, OrderedMap.has, unmarked, Option.isSome_none, and_self, if_true,
    List.length_append, List.length_cons, List.length_nil, Nat.zero_add, Int.natCast_add,
    Int.cast_ofNat_Int, head]
  rfl

/-- Where the depth allows it, the first step on an unmarked name is the first one on it when it is
marked and on the path. -/
theorem step_enter {m : Memory α} {path : List String} {stack below : List (String × Nat)}
    {name : String} {e : α} (entity : g.entities.get? name = some e)
    (unmarked : m.marks.get? name = none) (fits : (path.length : Int) < g.maxDepth) :
    step g ⟨m, path, stack⟩ name 0 below =
      step g ⟨m.mark name, path ++ [name], stack⟩ name 0 below := by
  have marked : (Walk.mk (m.mark name) (path ++ [name]) stack).memory.marks.has name = true := by
    simp [OrderedMap.has]
  simp only [step, entity, enter_of_marked marked]
  rw [enter_of_unmarked unmarked, if_neg (by omega)]

theorem step_enter_tooDeep {m : Memory α} {path : List String} {stack below : List (String × Nat)}
    {name : String} {e : α} (entity : g.entities.get? name = some e)
    (unmarked : m.marks.get? name = none) (full : g.maxDepth ≤ path.length) :
    step g ⟨m, path, stack⟩ name 0 below = .error ⟨.tooDeep (path.headD name), m.mark name⟩ := by
  simp only [step, entity]
  rw [enter_of_unmarked unmarked, if_pos (by omega)]
  rfl

theorem leave_eq (w : Walk α) (name : String) (e : α) (below : List (String × Nat)) :
    leave g w name e below =
      match finish g w.memory name e with
      | .error failure => .error failure
      | .ok m =>
          if w.path.isEmpty then .error ⟨.emptyPath, m⟩ else .ok ⟨m, w.path.dropLast, below⟩ := by
  by_cases deep : g.maxDepth < depthOf w.memory (g.parents e)
  · simp [leave, finish, deep]
  · simp [leave, finish, deep, settle]

/-! A visit as steps of the walk. -/

/-- The steps that are left after a visit. -/
def unspent (g : Lineage α) : Except (Failure α) (Memory α) → Nat
  | .ok m => g.pending m
  | .error _ => 0

/-- A walk comes to the given result with so many steps at the most; when it does not fail, the
given path and stack are left. -/
def Performs (g : Lineage α) (w : Walk α) (r : Except (Failure α) (Memory α)) (path : List String)
    (stack : List (String × Nat)) (budget : Nat) : Prop :=
  ∃ count, Runs g count w (r.map fun m => ⟨m, path, stack⟩) ∧ count + g.unspent r ≤ budget

theorem Performs.next {w w' : Walk α} {r : Except (Failure α) (Memory α)} {path : List String}
    {stack below : List (String × Nat)} {name : String} {index budget : Nat}
    (top : w.stack = (name, index) :: below) (steps : step g w name index below = .ok w')
    (h : Performs g w' r path stack budget) : Performs g w r path stack (budget + 1) := by
  obtain ⟨count, runs, le⟩ := h
  exact ⟨count + 1, .next top steps runs, by omega⟩

theorem Performs.fail {w : Walk α} {path : List String} {stack below : List (String × Nat)}
    {name : String} {index budget : Nat} {failure : Failure α}
    (top : w.stack = (name, index) :: below) (fails : step g w name index below = .error failure) :
    Performs g w (.error failure) path stack (budget + 1) :=
  ⟨1, .fail top fails, by simp [unspent]⟩

/-- One visit after another. -/
theorem Performs.bind {w : Walk α} {r : Except (Failure α) (Memory α)}
    {f : Memory α → Except (Failure α) (Memory α)} {path path' : List String}
    {stack stack' : List (String × Nat)} {budget extra : Nat}
    (first : Performs g w r path' stack' budget)
    (second : ∀ m, r = .ok m →
      Performs g ⟨m, path', stack'⟩ (f m) path stack (g.pending m + extra)) :
    Performs g w (r.bind f) path stack (budget + extra) := by
  obtain ⟨count, runs, le⟩ := first
  cases r with
  | error failure => exact ⟨count, runs, Nat.le_trans le (Nat.le_add_right _ _)⟩
  | ok m =>
      obtain ⟨more, runs', le'⟩ := second m rfl
      simp only [unspent] at le
      exact ⟨count + more, runs.trans runs', by simp only [Except.bind]; omega⟩

theorem Performs.congr_step {w w' : Walk α} {r : Except (Failure α) (Memory α)} {path : List String}
    {stack : List (String × Nat)} {name : String} {index budget : Nat}
    (top : w.stack = (name, index) :: stack) (top' : w'.stack = (name, index) :: stack)
    (same : step g w name index stack = step g w' name index stack)
    (h : Performs g w' r path stack budget) : Performs g w r path stack budget := by
  obtain ⟨count, runs, le⟩ := h
  cases count with
  | succ count => exact ⟨count + 1, runs.congr_step top top' same, le⟩
  | zero =>
      generalize hr : r.map (fun m => (⟨m, path, stack⟩ : Walk α)) = r' at runs
      cases runs with
      | stay _ =>
          cases r with
          | error failure => cases hr
          | ok m =>
              obtain rfl := Except.ok.inj hr
              simp at top'

/-- Looking at the parents of a marked name that have not been looked at yet. -/
theorem performs_visitParents (act : Memory α → String → Except (Failure α) (Memory α))
    (path : List String) (below : List (String × Nat)) {name : String} {e : α}
    (entity : g.entities.get? name = some e) (kept : ∀ m p m', act m p = .ok m' → MarksKept m m')
    (acts : ∀ m p stack, m.marks.get? p = none → g.entities.has p = true →
      Performs g ⟨m, path, (p, 0) :: stack⟩ (act m p) path stack (g.pending m))
    (done ps : List String) (parents : g.parents e = done ++ ps) {m : Memory α}
    (marked : m.marks.has name = true) :
    Performs g ⟨m, path, (name, done.length) :: below⟩ (visitParents g act path name ps m) path
      ((name, (g.parents e).length) :: below) (g.pending m + ps.length) := by
  -- on the parents left: the index on the stack is the number of those that are done
  induction ps generalizing done m with
  | nil =>
      refine ⟨0, ?_, by simp [visitParents, unspent]⟩
      rw [parents, List.append_nil]
      exact .stay _
  | cons p ps ih =>
      have here : (g.parents e)[done.length]? = some p := by simp [parents]
      have later : ∀ {m : Memory α}, m.marks.has name = true →
          Performs g ⟨m, path, (name, done.length + 1) :: below⟩ (visitParents g act path name ps m)
            path ((name, (g.parents e).length) :: below) (g.pending m + ps.length) := by
        intro m marked
        simpa using ih (done ++ [p]) (by simpa using parents) marked
      have first := step_parent ⟨m, path, (name, done.length) :: below⟩ below entity marked here
      rw [visitParents]
      unfold visitParent at first
      split at first
      · next missing =>
        rw [if_pos missing]
        exact .fail rfl first
      · next present =>
        rw [if_neg present]
        cases mark : m.marks.get? p with
        | some state =>
            simp only [mark] at first ⊢
            cases state with
            | visiting => exact .fail rfl first
            | resolved => exact .next rfl first (later marked)
        | none =>
            simp only [mark] at first ⊢
            have visits := acts m p ((name, done.length + 1) :: below) mark (by simpa using present)
            exact .next rfl first
              (visits.bind fun m' visited => later (kept _ _ _ visited name marked))

/-- Leaving a name all of whose parents have been looked at, which takes the
last name off the path. -/
theorem performs_leave {m : Memory α} {path : List String} {stack : List (String × Nat)}
    {name : String} {e : α} (entity : g.entities.get? name = some e)
    (marked : m.marks.has name = true) :
    Performs g ⟨m, path, (name, (g.parents e).length) :: stack⟩
      ((finish g m name e).bind fun m => if path.isEmpty then .error ⟨.emptyPath, m⟩ else .ok m)
      path.dropLast stack (g.pending m + 1) := by
  have ended : (g.parents e)[(g.parents e).length]? = none := by simp
  have left := step_leave ⟨m, path, (name, (g.parents e).length) :: stack⟩ stack entity marked ended
  rw [leave_eq] at left
  cases finished : finish g m name e with
  | error failure =>
      simp only [finished] at left
      exact .fail rfl left
  | ok m' =>
      have kept : g.pending m' ≤ g.pending m := by
        rw [(finish_ok finished).2]
        refine g.load_mono fun x hx => ?_
        by_contra h
        have := marksKept_settle g m name e x (by simpa using h)
        simp [this] at hx
      simp only [finished] at left
      simp only [Except.bind]
      split at left
      · next empty =>
        rw [if_pos empty]
        exact .fail rfl left
      · next nonempty =>
        rw [if_neg nonempty]
        exact ⟨1, .next rfl left (.stay _), by simp only [unspent]; omega⟩

theorem performs_visit (room : Nat) (path : List String) {m : Memory α} {name : String}
    (stack : List (String × Nat)) (roomy : (g.maxDepth - path.length).toNat = room)
    (unmarked : m.marks.get? name = none) (known : g.entities.has name = true) :
    Performs g ⟨m, path, (name, 0) :: stack⟩ (visit g room path m name) path
      stack (g.pending m) := by
  -- on the room below the depth, which one name more on the path takes up
  induction room generalizing path m name stack with
  | zero =>
      obtain ⟨e, entity⟩ := get?_of_has known
      have budget := pending_mark_le unmarked entity
      obtain ⟨rest, hrest⟩ : ∃ rest, g.pending m = rest + 1 := ⟨g.pending m - 1, by omega⟩
      rw [visit_zero entity, hrest]
      exact .fail rfl (step_enter_tooDeep entity unmarked (by omega))
  | succ room ih =>
      obtain ⟨e, entity⟩ := get?_of_has known
      have budget := pending_mark_le unmarked entity
      have marked : (m.mark name).marks.has name = true := by simp [OrderedMap.has]
      have roomy' : (g.maxDepth - ((path ++ [name]).length : Nat)).toNat = room := by
        simp only [List.length_append, List.length_cons, List.length_nil]
        omega
      have parents := performs_visitParents (visit g room (path ++ [name])) (path ++ [name]) stack
        entity (fun _ _ _ => visit_marksKept room)
        (fun _ _ stack' => ih (path ++ [name]) stack' roomy') [] (g.parents e) rfl marked
      have whole := parents.bind fun m₁ visited => performs_leave entity
        (visitParents_marksKept (fun _ _ _ => visit_marksKept room) _ visited name marked)
      have nonempty : ((path ++ [name]).isEmpty : Bool) = false := by simp
      have finishes (m₁ : Memory α) : (finish g m₁ name e).bind .ok = finish g m₁ name e := by
        cases finish g m₁ name e <;> rfl
      simp only [nonempty, Bool.false_eq_true, if_false, finishes, List.dropLast_concat] at whole
      obtain ⟨count, runs, le⟩ := whole.congr_step (w := ⟨m, path, (name, 0) :: stack⟩) rfl rfl
        (step_enter entity unmarked (by omega))
      rw [visit_succ entity]
      exact ⟨count, runs, by omega⟩

/-! Resolving a name. -/

/-- The answer for a name, from what is known after a visit. -/
def answer (name : String) : Except (Failure α) (Memory α) → Except Fault α × Memory α
  | .error failure => (.error failure.fault, failure.memory)
  | .ok m =>
    match m.resolved.get? name with
    | some a => (.ok a, m)
    | none => (.error (.unknown name), m)

theorem resolve_of_unknown {m : Memory α} {name : String} (unresolved : m.resolved.get? name = none)
    (unknown : g.entities.has name = false) : resolve g m name = (.error (.unknown name), m) := by
  simp [resolve, unresolved, unknown]

/-- Resolving a name that is not marked visits it. -/
theorem resolve_of_unmarked {m : Memory α} {name : String}
    (unresolved : m.resolved.get? name = none) (known : g.entities.has name = true)
    (unmarked : m.marks.get? name = none) :
    resolve g m name = answer name (visit g g.maxDepth.toNat [] m name) := by
  have bound := g.pending_le_stepBound m
  obtain ⟨count, runs, le⟩ := performs_visit g.maxDepth.toNat [] [] (by simp) unmarked known
  simp only [resolve, unresolved, known, Bool.true_eq_false, if_false]
  cases visited : visit g g.maxDepth.toNat [] m name with
  | error failure =>
      rw [visited] at runs
      rw [run_of_runs_error runs (by omega)]
      rfl
  | ok m' =>
      rw [visited] at runs
      rw [run_of_runs_ok runs rfl (by omega)]
      rfl

theorem revisit_eq_error (g : Lineage α) (m : Memory α) (name : String) (e : α) :
    ∃ failure, revisit g m name e = .error failure := by
  unfold revisit
  cases visitParents g (visit g g.maxDepth.toNat []) [] name (g.parents e) m with
  | error failure => exact ⟨failure, rfl⟩
  | ok m' =>
      simp only [Except.bind]
      cases finish g m' name e with
      | error failure => exact ⟨failure, rfl⟩
      | ok m'' => exact ⟨_, rfl⟩

/-- Resolving a name that an earlier walk has left marked goes through its parents,
and fails at the end. -/
theorem resolve_of_visiting {m : Memory α} {name : String} {e : α}
    (unresolved : m.resolved.get? name = none) (entity : g.entities.get? name = some e)
    (visiting : m.marks.get? name = some .visiting) :
    resolve g m name = answer name (revisit g m name e) := by
  have marked : m.marks.has name = true := by simp [OrderedMap.has, visiting]
  have bound := pending_add_le_stepBound marked entity
  have parents := performs_visitParents (visit g g.maxDepth.toNat []) [] [] entity
    (fun _ _ _ => visit_marksKept _)
    (fun _ _ stack => performs_visit g.maxDepth.toNat [] stack (by simp)) []
    (g.parents e) rfl marked
  obtain ⟨count, runs, le⟩ := parents.bind fun m₁ visited => performs_leave entity
    (visitParents_marksKept (fun _ _ _ => visit_marksKept _) _ visited name marked)
  obtain ⟨failure, failed⟩ := revisit_eq_error g m name e
  have same : (visitParents g (visit g g.maxDepth.toNat []) [] name (g.parents e) m).bind (fun m =>
      (finish g m name e).bind fun m =>
        if ([] : List String).isEmpty then .error ⟨.emptyPath, m⟩ else .ok m) =
      .error failure := failed
  rw [same] at runs le
  simp only [List.length_nil] at runs
  simp only [resolve, unresolved, has_of_get? entity, Bool.true_eq_false, if_false]
  rw [run_of_runs_error runs (by omega), failed]
  rfl

end UiMarkup.Lineage
