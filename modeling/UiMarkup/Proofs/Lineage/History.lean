import UiMarkup.Proofs.Lineage.Resolution

/-!
Calls that follow one another. What earlier calls have left is compared with nothing being known: a
visit from scratch and a visit that finds names resolved look at the same names, save those below a
resolved one, as long as no name that is reached is left marked. So both give the same form, or both
fail. They fail in the same way unless the visit from scratch finds a chain too long, which the
other one, going less deep, may miss until a name is left, or after it has met another fault.
-/

namespace UiMarkup.Lineage

variable {α : Type} {g : Lineage α}

/-- What is known after calls for some names, whether they have returned or failed. -/
def memoryAfter (g : Lineage α) (calls : List String) : Memory α :=
  calls.foldl (fun m name => (resolve g m name).2) {}

theorem memoryAfter_concat (g : Lineage α) (calls : List String) (name : String) :
    g.memoryAfter (calls ++ [name]) = (g.resolve (g.memoryAfter calls) name).2 := by
  simp [memoryAfter]

theorem memoryAfter_sound (g : Lineage α) (calls : List String) :
    g.Sound (g.memoryAfter calls) := by
  induction calls using List.reverseRecOn with
  | nil => exact .empty g
  | append_singleton calls name ih =>
      rw [memoryAfter_concat]
      exact (resolve_sound ih name).1

/-- A name that is left marked was reached by a call that has failed. -/
theorem failed_of_visiting {calls : List String} {x : String}
    (visiting : (g.memoryAfter calls).marks.get? x = some .visiting) :
    ∃ before name after, calls = before ++ name :: after ∧ g.Reaches name x ∧
      ∃ fault, (g.resolve (g.memoryAfter before) name).1 = .error fault := by
  induction calls using List.reverseRecOn with
  | nil => simp [memoryAfter, OrderedMap.get?] at visiting
  | append_singleton calls name ih =>
      have earlier : (g.memoryAfter calls).marks.get? x = some .visiting →
          ∃ before n after, calls ++ [name] = before ++ n :: after ∧ g.Reaches n x ∧
            ∃ fault, (g.resolve (g.memoryAfter before) n).1 = .error fault := by
        intro h
        obtain ⟨before, n, after, rfl, failed⟩ := ih h
        exact ⟨before, n, after ++ [name], by simp, failed⟩
      have sound := g.memoryAfter_sound calls
      rw [memoryAfter_concat] at visiting
      cases result : (g.resolve (g.memoryAfter calls) name).1 with
      | ok a => exact earlier ((resolve_ok sound result).1.visiting visiting)
      | error fault =>
          by_cases reached : g.Reaches name x
          · exact ⟨calls, name, [], rfl, reached, fault, result⟩
          · rw [(resolve_sound sound name).2.beyond x reached] at visiting
            exact earlier visiting

/-- What a call has resolved stays resolved. -/
theorem resolved_after {before : List String} (after : List String) {x : String}
    (resolved : (g.memoryAfter before).marks.get? x = some .resolved) :
    (g.memoryAfter (before ++ after)).marks.get? x = some .resolved := by
  induction after using List.reverseRecOn with
  | nil => simpa using resolved
  | append_singleton after name ih =>
      rw [← List.append_assoc, memoryAfter_concat]
      exact (resolve_sound (g.memoryAfter_sound _) name).2.resolved x ih

/-! A visit from scratch beside one that finds names resolved. -/

/-- How a first result bears on a second one: a success goes with a success, a failure with one by
the same fault; only a chain that is too long says nothing. -/
inductive Matches (P : Memory α → Memory α → Prop) :
    Except (Failure α) (Memory α) → Except (Failure α) (Memory α) → Prop
  | ok {m m' : Memory α} (h : P m m') : Matches P (.ok m) (.ok m')
  | same {f f' : Failure α} (h : f.fault = f'.fault) : Matches P (.error f) (.error f')
  | tooDeep {f : Failure α} {r : Except (Failure α) (Memory α)} (h : f.fault.IsTooDeep) :
      Matches P (.error f) r

theorem Matches.bind {P P' : Memory α → Memory α → Prop} {r r' : Except (Failure α) (Memory α)}
    {k k' : Memory α → Except (Failure α) (Memory α)} (first : Matches P r r')
    (second : ∀ m m', P m m' → Matches P' (k m) (k' m')) : Matches P' (r.bind k) (r'.bind k') := by
  cases first with
  | ok h => exact second _ _ h
  | same h => exact .same h
  | tooDeep h => exact .tooDeep h

theorem Matches.and_ends {P : Memory α → Memory α → Prop} {A B : Memory α → Prop}
    {Q Q' : Failure α → Prop} {r r' : Except (Failure α) (Memory α)} (h : Matches P r r')
    (left : Ends A Q r) (right : Ends B Q' r') :
    Matches (fun m m' => P m m' ∧ A m ∧ B m') r r' := by
  cases h with
  | ok h => exact .ok ⟨h, left, right⟩
  | same h => exact .same h
  | tooDeep h => exact .tooDeep h

/-- A memory built up from scratch beside one that starts out from given resolved names: on the
names that a root reaches, the second has the marks of the first, and the given names besides. -/
structure Agrees (g : Lineage α) (start : Memory α) (root : String) (m m' : Memory α) : Prop where
  sound : g.Sound m
  sound' : g.Sound m'
  given : ∀ x, g.Reaches root x → start.marks.get? x = some .resolved →
    m'.marks.get? x = some .resolved ∧ m.marks.get? x ≠ some .visiting
  other : ∀ x, g.Reaches root x → start.marks.get? x ≠ some .resolved →
    m'.marks.get? x = m.marks.get? x

namespace Agrees

variable {start m m' : Memory α} {root name : String}

theorem mark (agrees : g.Agrees start root m m') (reached : g.Reaches root name)
    (ungiven : start.marks.get? name ≠ some .resolved) (unmarked : m.marks.get? name = none) :
    g.Agrees start root (m.mark name) (m'.mark name) := by
  have unmarked' : m'.marks.get? name = none := (agrees.other name reached ungiven).trans unmarked
  refine ⟨agrees.sound.mark unmarked, agrees.sound'.mark unmarked',
    fun x hx given => ?_, fun x hx new => ?_⟩
  · have : x ≠ name := by rintro rfl; exact ungiven given
    simpa [this] using agrees.given x hx given
  · by_cases same : x = name
    · simp [same]
    · simpa [same] using agrees.other x hx new

/-- A visit from scratch to a given name leaves the other memory behind by given names only. -/
theorem skip {m₁ : Memory α} (start_sound : g.Sound start) (agrees : g.Agrees start root m m')
    (given : start.marks.get? name = some .resolved) (sound₁ : g.Sound m₁)
    (grows : g.Grows name m m₁) : g.Agrees start root m₁ m' := by
  refine ⟨sound₁, agrees.sound', fun x hx hgiven => ?_, fun x hx new => ?_⟩
  · obtain ⟨resolved, settled⟩ := agrees.given x hx hgiven
    exact ⟨resolved, fun visiting => settled (grows.visiting visiting)⟩
  · rw [agrees.other x hx new]
    cases old : m.marks.get? x with
    | some mark => exact (grows.kept x mark old).symm
    | none =>
        rcases grows.added x old with still | ⟨_, reached⟩
        · exact still.symm
        · exact absurd (start_sound.of_reaches given reached) new

theorem not_blocked (start_sound : g.Sound start) (agrees : g.Agrees start root m m')
    (reached : g.Reaches root name) (given : start.marks.get? name = some .resolved) :
    ¬ g.Blocked m name := by
  rintro ⟨x, further, visiting⟩
  exact (agrees.given x (reached.trans further) (start_sound.of_reaches given further)).2 visiting

theorem finish (agrees : g.Agrees start root m m') {e : α} (entity : g.entities.get? name = some e)
    (ungiven : start.marks.get? name ≠ some .resolved)
    (parents : ∀ p ∈ g.parents e, m.marks.get? p = some .resolved)
    (parents' : ∀ p ∈ g.parents e, m'.marks.get? p = some .resolved) :
    Matches (g.Agrees start root) (finish g m name e) (finish g m' name e) := by
  have same : depthOf m (g.parents e) = depthOf m' (g.parents e) :=
    ((agrees.sound.derives_combine entity parents).unique
      (agrees.sound'.derives_combine entity parents')).1
  by_cases deep : g.maxDepth < depthOf m (g.parents e)
  · rw [Lineage.finish, if_pos deep]
    exact .tooDeep ⟨_, rfl⟩
  · rw [Lineage.finish, if_neg deep, Lineage.finish, if_neg (same ▸ deep)]
    refine .ok ⟨agrees.sound.settle entity parents (by omega),
      agrees.sound'.settle entity parents' (by omega), fun x hx given => ?_, fun x hx new => ?_⟩
    · have : x ≠ name := by rintro rfl; exact ungiven given
      simpa [this] using agrees.given x hx given
    · by_cases here : x = name
      · simp [here]
      · simpa [here] using agrees.other x hx new

end Agrees

/-- Looking at parents from scratch and with names given. A given parent is visited on the one side
only; that visit can fail only because a chain is too long, as the parent is known to derive. -/
theorem visitParents_agrees (act : Memory α → String → Except (Failure α) (Memory α))
    {start : Memory α} {root child : String} (start_sound : g.Sound start)
    (reached : g.Reaches root child)
    (acts : ∀ m m' p, g.Agrees start root m m' → g.Reaches root p →
      start.marks.get? p ≠ some .resolved →
      m.marks.get? p = none → Matches (g.Agrees start root) (act m p) (act m' p))
    (skips : ∀ m p, g.Sound m → start.marks.get? p = some .resolved → m.marks.get? p = none →
      ¬ g.Blocked m p → Ends (fun m' => g.Sound m' ∧ g.Grows p m m')
      (fun f => f.fault.IsTooDeep) (act m p))
    (path : List String) (ps : List String) (links : ∀ p ∈ ps, g.Parent child p) {m m' : Memory α}
    (agrees : g.Agrees start root m m') :
    Matches (g.Agrees start root) (visitParents g act path child ps m)
      (visitParents g act path child ps m') := by
  induction ps generalizing m m' with
  | nil => exact .ok agrees
  | cons p ps ih =>
      have later : ∀ {m m' : Memory α}, g.Agrees start root m m' →
          Matches (g.Agrees start root) (visitParents g act path child ps m)
            (visitParents g act path child ps m') :=
        fun agrees => ih (fun q hq => links q (List.mem_cons_of_mem _ hq)) agrees
      have here : g.Reaches root p := reached.tail (links p (by simp))
      rw [visitParents, visitParents]
      split
      · exact .same rfl
      · by_cases given : start.marks.get? p = some .resolved
        · obtain ⟨resolved, settled⟩ := agrees.given p here given
          rw [resolved]
          cases mark : m.marks.get? p with
          | some state =>
              cases state with
              | visiting => exact absurd mark settled
              | resolved => exact later agrees
          | none =>
              have visited :=
                skips m p agrees.sound given mark (agrees.not_blocked start_sound here given)
              simp only
              cases result : act m p with
              | error failure =>
                  rw [result] at visited
                  exact .tooDeep visited
              | ok m₁ =>
                  rw [result] at visited
                  exact later (agrees.skip start_sound given visited.1 visited.2)
        · rw [agrees.other p here given]
          cases mark : m.marks.get? p with
          | some state =>
              cases state with
              | visiting => exact .same rfl
              | resolved => exact later agrees
          | none => exact (acts m m' p agrees here given mark).bind fun _ _ => later

theorem visit_agrees {start : Memory α} {root : String} (start_sound : g.Sound start) (room : Nat)
    (within : (room : Int) ≤ g.maxDepth) (path : List String) {m m' : Memory α} {name : String}
    (agrees : g.Agrees start root m m') (reached : g.Reaches root name)
    (ungiven : start.marks.get? name ≠ some .resolved) (unmarked : m.marks.get? name = none) :
    Matches (g.Agrees start root) (visit g room path m name) (visit g room path m' name) := by
  induction room generalizing path m m' name with
  | zero =>
      cases entity : g.entities.get? name with
      | none =>
          simp only [visit, entity]
          exact .same rfl
      | some e =>
          rw [visit_zero entity, visit_zero entity]
          exact .same rfl
  | succ room ih =>
      cases entity : g.entities.get? name with
      | none =>
          simp only [visit, entity]
          exact .same rfl
      | some e =>
          have unmarked' : m'.marks.get? name = none :=
            (agrees.other name reached ungiven).trans unmarked
          have acts (m : Memory α) (p : String) (sound : g.Sound m)
              (unmarked : m.marks.get? p = none) :=
            visit_sound room (path ++ [name]) sound unmarked
          have links : ∀ p ∈ g.parents e, g.Parent name p := fun p hp => ⟨e, entity, hp⟩
          -- a name that was given as resolved is walked on one side only
          have skips : ∀ m p, g.Sound m → start.marks.get? p = some .resolved →
              m.marks.get? p = none →
              ¬ g.Blocked m p →
                Ends (fun m' => g.Sound m' ∧ g.Grows p m m') (fun f => f.fault.IsTooDeep)
                  (visit g room (path ++ [name]) m p) := by
            intro m p sound given unmarked clear
            obtain ⟨_, _, _, _, derived, _⟩ := start_sound.derived p given
            have short :=
              visit_of_derives derived room (path ++ [name]) sound (by omega) unmarked clear
            exact (Ends.and (acts m p sound unmarked) short).mono (fun _ h => ⟨h.1.1, h.1.2.1⟩)
              fun _ h => h.2.1
          have parents := visitParents_agrees (visit g room (path ++ [name])) start_sound reached
            (fun _ _ _ agrees here new unmarked =>
              ih (by omega) (path ++ [name]) agrees here new unmarked)
            skips (path ++ [name]) (g.parents e) links (agrees.mark reached ungiven unmarked)
          have all := visitParents_sound acts (path ++ [name]) (g.parents e) links
            (agrees.sound.mark unmarked)
          have all' := visitParents_sound acts (path ++ [name]) (g.parents e) links
            (agrees.sound'.mark unmarked')
          rw [visit_succ entity, visit_succ entity]
          refine (parents.and_ends all all').bind fun m₁ m₁' h => ?_
          obtain ⟨agrees₁, h, h'⟩ := h
          exact agrees₁.finish entity ungiven h.2.2 h'.2.2

/-- A call that reaches no name left marked fails as it would with nothing known, unless that is for
a chain that is too long. -/
theorem resolve_eq_error {m : Memory α} (sound : g.Sound m) {name : String}
    (clear : ¬ g.Blocked m name) {fault : Fault} (failed : g.resolveFresh name = .error fault)
    (short : ¬ fault.IsTooDeep) : (resolve g m name).1 = .error fault := by
  have empty := Sound.empty g
  rcases resolve_cases sound name
    with ⟨a, found, h⟩ | ⟨unknown, h⟩ | ⟨known, unmarked, h⟩ | ⟨_, _, visiting, _⟩
  · obtain ⟨d, v, _, _, derived, within⟩ := sound.derived name (sound.marked name a found)
    simp [(g.resolveFresh_eq_ok_iff name v).mpr ⟨d, derived, within⟩] at failed
  · rw [h, ← failed, resolveFresh, resolve_of_unknown rfl unknown]
  · have fresh : g.resolveFresh name = (answer name (visit g g.maxDepth.toNat [] {} name)).1 := by
      rw [resolveFresh, resolve_of_unmarked rfl known rfl]
    rw [fresh] at failed
    rw [h]
    by_cases deep : g.maxDepth < 0
    · have none : g.maxDepth.toNat = 0 := by omega
      obtain ⟨e, entity⟩ := get?_of_has known
      rw [none, visit_zero entity] at failed
      exact absurd ⟨_, (Except.error.inj failed).symm⟩ short
    · have start : g.Agrees m name {} m := by
        refine ⟨empty, sound, fun x _ given => ⟨given, nofun⟩, fun x reached new => ?_⟩
        cases mark : m.marks.get? x with
        | none => rfl
        | some state =>
            cases state with
            | visiting => exact absurd ⟨x, reached, mark⟩ clear
            | resolved => exact absurd mark new
      have pair := visit_agrees sound g.maxDepth.toNat (by omega) [] start .refl
        (by simp [unmarked]) rfl
      have ended : Ends _ _ (visit g g.maxDepth.toNat [] {} name) := visit_sound _ [] empty rfl
      generalize visit g g.maxDepth.toNat [] {} name = first at failed pair ended
      generalize visit g g.maxDepth.toNat [] m name = second at pair ⊢
      cases pair with
      | ok _ =>
          obtain ⟨sound₁, _, mark⟩ := ended
          obtain ⟨_, v, _, value, _⟩ := sound₁.derived name mark
          simp [answer_ok value] at failed
      | same same => exact (congrArg Except.error same).symm.trans failed
      | tooDeep deep => exact absurd (Except.error.inj failed ▸ deep) short
  · exact absurd ⟨name, .refl, visiting⟩ clear

/-- A call among others, any of which may have failed, and the same call with nothing known. It
returns what that returns, unless it reaches a name that is left marked as being visited. Where it
reaches none both return or both fail, and by the same fault, save that a chain that is too long may
be found by another fault. A name is only left marked by a call that has failed and reaches it, and
a call that has returned once returns the same again. -/
theorem resolve_memoryAfter (g : Lineage α) (calls : List String) (name : String) :
    (∀ a, (g.resolve (g.memoryAfter calls) name).1 = .ok a ↔
      g.resolveFresh name = .ok a ∧ ¬ g.Blocked (g.memoryAfter calls) name) ∧
    (¬ g.Blocked (g.memoryAfter calls) name → ∀ fault, g.resolveFresh name = .error fault →
      ∃ fault', (g.resolve (g.memoryAfter calls) name).1 = .error fault' ∧
        (fault' = fault ∨ fault.IsTooDeep)) ∧
    (g.Blocked (g.memoryAfter calls) name → ∃ before other after, calls = before ++ other :: after ∧
      (∃ fault, (g.resolve (g.memoryAfter before) other).1 = .error fault) ∧
      ∃ x, g.Reaches other x ∧ g.Reaches name x) ∧
    (∀ before after a, calls = before ++ name :: after →
      (g.resolve (g.memoryAfter before) name).1 = .ok a →
      (g.resolve (g.memoryAfter calls) name).1 = .ok a) := by
  have sound := g.memoryAfter_sound calls
  have returns (a : α) := g.resolveFresh_eq_ok_iff name a
  refine ⟨fun a => ?_, fun clear fault failed => ?_, ?_, ?_⟩
  · rw [resolve_eq_ok_iff sound, returns]
  · by_cases deep : fault.IsTooDeep
    · cases result : (g.resolve (g.memoryAfter calls) name).1 with
      | error fault' => exact ⟨fault', rfl, .inr deep⟩
      | ok a =>
          have := (returns a).mpr ((resolve_eq_ok_iff sound name a).mp result).1
          simp [this] at failed
    · exact ⟨fault, resolve_eq_error sound clear failed deep, .inl rfl⟩
  · rintro ⟨x, reached, visiting⟩
    obtain ⟨before, other, after, split, reached', failed⟩ := failed_of_visiting visiting
    exact ⟨before, other, after, split, failed, x, reached', reached⟩
  · rintro before after a rfl returned
    have sound₁ := g.memoryAfter_sound before
    obtain ⟨derived, _⟩ := (resolve_eq_ok_iff sound₁ name a).mp returned
    have mark := (resolve_sound sound₁ name).1.marked name a (resolve_ok sound₁ returned).2
    rw [← memoryAfter_concat] at mark
    have still := resolved_after after mark
    rw [List.append_assoc] at still
    exact (resolve_eq_ok_iff sound name a).mpr ⟨derived, sound.not_blocked still⟩

/-- A missing parent, and more ancestors than the depth allows. -/
def broken : Lineage (List Nat × List String) :=
  listed [("a", [1], []), ("b", [2], ["a"]), ("c", [3], ["b"]), ("d", [4], ["c", "ghost"]),
    ("e", [5], ["ghost"]), ("f", [6], ["e"]), ("g", [7], ["a", "ghost"])] 3

/-- The only name that has `e` for a parent is `f`, which is no one's parent, so neither
is reached from others. -/
theorem broken_reaches {name : String} (other : name ≠ "e") (other' : name ≠ "f") :
    ¬ broken.Reaches name "e" ∧ ¬ broken.Reaches name "f" := by
  have lists : ∀ p ∈ broken.entities, "f" ∉ p.2.2 ∧ ("e" ∈ p.2.2 → p.1 = "f") := by decide
  have top : ¬ broken.Reaches name "f" := by
    intro reached
    rcases Relation.ReflTransGen.cases_tail reached with same | ⟨child, _, e, entity, mem⟩
    · exact other' same.symm
    · exact (lists _ (OrderedMap.mem_of_get?_eq_some entity)).1 mem
  refine ⟨fun reached => ?_, top⟩
  rcases Relation.ReflTransGen.cases_tail reached with same | ⟨child, further, e, entity, mem⟩
  · exact other same.symm
  · exact top ((lists _ (OrderedMap.mem_of_get?_eq_some entity)).2 mem ▸ further)

/-- After a call for `c`, which returns, and one for `f`, which fails and leaves `f`
and its parent marked. -/
theorem resolve_memoryAfter_broken :
    ((broken.resolve (broken.memoryAfter ["c", "f"]) "c").1 = .ok ([3, 2, 1], ["b"]) ∧
      broken.resolveFresh "c" = .ok ([3, 2, 1], ["b"]) ∧
      ¬ broken.Blocked (broken.memoryAfter ["c", "f"]) "c") ∧
    (¬ broken.Blocked (broken.memoryAfter ["c", "f"]) "g" ∧
      broken.resolveFresh "g" = .error (.notFound "ghost" "g") ∧
      ∃ fault, (broken.resolve (broken.memoryAfter ["c", "f"]) "g").1 = .error fault ∧
        (fault = .notFound "ghost" "g" ∨ (Fault.notFound "ghost" "g").IsTooDeep)) ∧
    (broken.Blocked (broken.memoryAfter ["c", "f"]) "f" ∧
      ∃ before other after, ["c", "f"] = before ++ other :: after ∧
        (∃ fault, (broken.resolve (broken.memoryAfter before) other).1 = .error fault) ∧
        ∃ x, broken.Reaches other x ∧ broken.Reaches "f" x) := by
  have marks : (broken.memoryAfter ["c", "f"]).marks =
      [("c", .resolved), ("b", .resolved), ("a", .resolved),
      ("f", .visiting), ("e", .visiting)] := by cbv
  have again : (broken.resolve (broken.memoryAfter ["c", "f"]) "c").1 = .ok ([3, 2, 1], ["b"]) :=
    (resolve_memoryAfter broken ["c", "f"] "c").2.2.2 [] ["f"] _ rfl (by cbv)
  have clear : ¬ broken.Blocked (broken.memoryAfter ["c", "f"]) "g" := by
    rintro ⟨x, reached, visiting⟩
    have unreached := @broken_reaches "g" (by decide) (by decide)
    have marked : ∀ p ∈ (broken.memoryAfter ["c", "f"]).marks, p.2 = .visiting →
        p.1 = "e" ∨ p.1 = "f" := by
      rw [marks]
      decide
    rcases marked _ (OrderedMap.mem_of_get?_eq_some visiting) rfl with rfl | rfl
    · exact unreached.1 reached
    · exact unreached.2 reached
  have failed : broken.resolveFresh "g" = .error (.notFound "ghost" "g") := by cbv
  have blocked : broken.Blocked (broken.memoryAfter ["c", "f"]) "f" :=
    ⟨"f", .refl, by rw [marks]; decide⟩
  exact ⟨⟨again, (resolve_memoryAfter broken ["c", "f"] "c").1 _ |>.mp again⟩,
    ⟨clear, failed, (resolve_memoryAfter broken ["c", "f"] "g").2.1 clear _ failed⟩,
    blocked, (resolve_memoryAfter broken ["c", "f"] "f").2.2.1 blocked⟩

/-- Calls do not always answer as they would with nothing known. After a failed call for `e`, the
call for `f` meets the mark that is left on `e`. After a call for `c` that returns, the chain above
`c` is not walked again, so the call for `d` meets its missing parent first. After a failed call for
`d`, its ancestor `a` is marked and cannot be resolved any more. -/
theorem resolve_memoryAfter_ne_resolveFresh :
    ((broken.resolve (broken.memoryAfter ["e"]) "f").1 = .error (.circular ["f", "e"]) ∧
      broken.resolveFresh "f" = .error (.notFound "ghost" "e")) ∧
    ((broken.resolve (broken.memoryAfter ["c"]) "d").1 = .error (.notFound "ghost" "d") ∧
      broken.resolveFresh "d" = .error (.tooDeep "d")) ∧
    ((broken.resolve (broken.memoryAfter ["d"]) "a").1 = .error .emptyPath ∧
      broken.resolveFresh "a" = .ok ([1], [])) := by
  refine ⟨⟨?_, ?_⟩, ⟨?_, ?_⟩, ?_, ?_⟩ <;> cbv

end UiMarkup.Lineage
