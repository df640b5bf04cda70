import UiMarkup.Proofs.Lineage.Soundness

/-!
When a name is resolved. A visit to a name that derives succeeds, or says that a chain is too
long, which it can only do when the room is less than the derived length. So a call succeeds
exactly when the name derives within the depth and reaches no name that is left marked as being
visited (`resolve_eq_ok_iff`).
-/

namespace UiMarkup.Lineage

variable {α : Type} {g : Lineage α}

def Fault.IsTooDeep (fault : Fault) : Prop := ∃ name, fault = .tooDeep name

namespace Blocked

theorem of_grows {root name : String} {m m' : Memory α} (grows : g.Grows root m m')
    (h : g.Blocked m' name) : g.Blocked m name := by
  obtain ⟨x, reached, visiting⟩ := h
  exact ⟨x, reached, grows.visiting visiting⟩

/-- The mark of the visited name itself blocks no parent of it, as it is on no cycle. -/
theorem of_mark {m : Memory α} {name parent : String} {d : Nat} {v : α}
    (derived : g.Derives name d v) (link : g.Parent name parent)
    (h : g.Blocked (m.mark name) parent) : g.Blocked m name := by
  obtain ⟨x, reached, visiting⟩ := h
  by_cases hx : x = name
  · subst hx
    exact absurd (Relation.TransGen.head' link reached) derived.not_cyclic
  · exact ⟨x, .head link reached, by simpa [hx] using visiting⟩

end Blocked

/-- Looking at parents that are there and not blocked fails only where a visit does. -/
theorem visitParents_of_acts {act : Memory α → String → Except (Failure α) (Memory α)}
    {Q : Fault → Prop} (acts : ∀ m p, g.Sound m → m.marks.get? p = none → g.Visited p m (act m p))
    (path : List String) (child : String) (ps : List String)
    (works : ∀ p ∈ ps, ∀ m, g.Sound m → m.marks.get? p = none → ¬ g.Blocked m p →
      Ends (fun _ => True) (fun failure => Q failure.fault) (act m p))
    (known : ∀ p ∈ ps, g.entities.has p = true) {m : Memory α} (sound : g.Sound m)
    (clear : ∀ p ∈ ps, ¬ g.Blocked m p) :
    Ends (fun _ => True) (fun failure => Q failure.fault) (visitParents g act path child ps m) := by
  induction ps generalizing m with
  | nil => trivial
  | cons p ps ih =>
      have later : ∀ {m' : Memory α}, g.Sound m' → g.Grows p m m' →
          Ends (fun _ => True) (fun failure => Q failure.fault)
            (visitParents g act path child ps m') := by
        intro m' sound' grows
        apply ih (fun q hq => works q (List.mem_cons_of_mem _ hq))
          (fun q hq => known q (List.mem_cons_of_mem _ hq)) sound'
        intro q hq blocked
        exact clear q (List.mem_cons_of_mem _ hq) (blocked.of_grows grows)
      rw [visitParents, if_neg (by simp [known p])]
      cases mark : m.marks.get? p with
      | some state =>
          cases state with
          | visiting => exact absurd ⟨p, .refl, mark⟩ (clear p (by simp))
          | resolved => exact later sound (.refl g p m)
      | none =>
          have result :=
            Ends.and (acts m p sound mark) (works p (by simp) m sound mark (clear p (by simp)))
          exact (result.mono (fun _ h => h.1) fun _ h => h.2).bind fun m' h => later h.1 h.2.1

/-- A visit to a name that derives and is not blocked can only find that a chain is too long, and
then the name's own longest chain is longer than the room. -/
theorem visit_of_derives {name : String} {d : Nat} {v : α} (derived : g.Derives name d v)
    (room : Nat) (path : List String) {m : Memory α} (sound : g.Sound m)
    (within : (room : Int) ≤ g.maxDepth) (unmarked : m.marks.get? name = none)
    (clear : ¬ g.Blocked m name) :
    Ends (fun _ => True) (fun failure => failure.fault.IsTooDeep ∧ room < d)
      (visit g room path m name) := by
  induction derived generalizing room path m with
  | @intro name e depth value entity derived ih =>
      have whole : g.Derives name _ _ := .intro depth value entity derived
      cases room with
      | zero =>
          rw [visit_zero entity]
          exact ⟨⟨_, rfl⟩, by omega⟩
      | succ room =>
          rw [visit_succ entity]
          have link : ∀ p ∈ g.parents e, g.Parent name p := fun p hp => ⟨e, entity, hp⟩
          have longer : ∀ p ∈ g.parents e, depth p ≤ ((g.parents e).map depth).foldl max 0 :=
            fun p hp => le_foldl_max 0 (.inr (List.mem_map_of_mem hp))
          have acts (m : Memory α) (p : String) (sound : g.Sound m)
              (unmarked : m.marks.get? p = none) :=
            visit_sound room (path ++ [name]) sound unmarked
          have parents :=
            (visitParents_sound acts (path ++ [name]) (g.parents e) link (sound.mark unmarked)).and
              (visitParents_of_acts (Q := fun fault => fault.IsTooDeep ∧
                room + 1 < 1 + ((g.parents e).map depth).foldl max 0) acts (path ++ [name]) name
              (g.parents e)
              (fun p hp m sound unmarked clear =>
                (ih p hp room (path ++ [name]) sound (by omega) unmarked clear).mono (fun _ h => h)
                  fun _ ⟨deep, short⟩ => ⟨deep, by have := longer p hp; omega⟩)
              (fun p hp => (derived p hp).known) (sound.mark unmarked)
              fun p hp blocked => clear (blocked.of_mark whole (link p hp)))
          refine (parents.mono (fun _ h => h.1) fun _ h => h.2).bind fun m₁ ⟨sound₁, _, all⟩ => ?_
          have length := ((sound₁.derives_combine entity all).unique whole).1
          unfold finish
          split
          · exact ⟨⟨_, rfl⟩, by omega⟩
          · trivial

/-! Calls. -/

/-- What a call comes to: a look-up, a refusal, a visit, or the walk from a
name that is left marked. -/
theorem resolve_cases {m : Memory α} (sound : g.Sound m) (name : String) :
    (∃ a, m.resolved.get? name = some a ∧ resolve g m name = (.ok a, m)) ∨
    (g.entities.has name = false ∧ resolve g m name = (.error (.unknown name), m)) ∨
    (g.entities.has name = true ∧ m.marks.get? name = none ∧
      resolve g m name = answer name (visit g g.maxDepth.toNat [] m name)) ∨
    (∃ e, g.entities.get? name = some e ∧ m.marks.get? name = some .visiting ∧
      resolve g m name = answer name (revisit g m name e)) := by
  cases value : m.resolved.get? name with
  | some a => exact .inl ⟨a, rfl, by simp [resolve, value]⟩
  | none =>
      cases known : g.entities.has name with
      | false => exact .inr (.inl ⟨rfl, resolve_of_unknown value known⟩)
      | true =>
          cases mark : m.marks.get? name with
          | none => exact .inr (.inr (.inl ⟨rfl, rfl, resolve_of_unmarked value known mark⟩))
          | some state =>
              cases state with
              | visiting =>
                  obtain ⟨e, entity⟩ := get?_of_has known
                  exact .inr (.inr (.inr ⟨e, entity, rfl, resolve_of_visiting value entity mark⟩))
              | resolved =>
                  obtain ⟨_, _, _, found, _⟩ := sound.derived name mark
                  simp [value] at found

theorem answer_ok {name : String} {m : Memory α} {a : α} (found : m.resolved.get? name = some a) :
    answer name (.ok m) = (.ok a, m) := by
  simp [answer, found]

theorem answer_eq_ok {name : String} {r : Except (Failure α) (Memory α)} {a : α}
    (h : (answer name r).1 = .ok a) : ∃ m, r = .ok m ∧ m.resolved.get? name = some a := by
  cases r with
  | error failure => cases h
  | ok m =>
      refine ⟨m, rfl, ?_⟩
      cases found : m.resolved.get? name with
      | none => simp [answer, found] at h
      | some b => simpa [answer, found] using h

theorem answer_ends {P : Memory α → Prop} (name : String) {r : Except (Failure α) (Memory α)}
    (h : Ends P (fun failure => P failure.memory) r) : P (answer name r).2 := by
  cases r with
  | error failure => exact h
  | ok m =>
      have known : P m := h
      cases found : m.resolved.get? name <;> simpa [answer, found] using known

theorem revisit_sound {m : Memory α} {name : String} {e : α} (sound : g.Sound m)
    (entity : g.entities.get? name = some e) :
    Ends (fun _ => False) (fun failure => g.Sound failure.memory ∧ g.Local name m failure.memory)
      (revisit g m name e) := by
  have parents := visitParents_sound (fun m p => visit_sound g.maxDepth.toNat []) [] (g.parents e)
    (fun p hp => ⟨e, entity, hp⟩) sound
  refine parents.bind fun m₁ ⟨sound₁, grows₁, all⟩ => ?_
  have nearby := Local.of_grows grows₁
  refine ((finish_sound sound₁ entity all).mono (fun _ h => h) ?_).bind ?_
  · rintro failure rfl
    exact ⟨sound₁, nearby⟩
  · rintro m₂ ⟨sound₂, rfl⟩
    exact ⟨sound₂, nearby.trans (.settle m₁ name e)⟩

/-- No call makes what is known wrong, or changes the mark of a name that it does not reach. -/
theorem resolve_sound {m : Memory α} (sound : g.Sound m) (name : String) :
    g.Sound (resolve g m name).2 ∧ g.Local name m (resolve g m name).2 := by
  rcases resolve_cases sound name with ⟨_, _, h⟩ | ⟨_, h⟩ | ⟨_, unmarked, h⟩ | ⟨e, entity, _, h⟩
  · rw [h]
    exact ⟨sound, .refl g name m⟩
  · rw [h]
    exact ⟨sound, .refl g name m⟩
  · rw [h]
    exact answer_ends (P := fun m' => g.Sound m' ∧ g.Local name m m') name
      ((visit_sound _ _ sound unmarked).mono (fun _ h => ⟨h.1, .of_grows h.2.1⟩) fun _ h => h)
  · rw [h]
    exact answer_ends (P := fun m' => g.Sound m' ∧ g.Local name m m') name
      ((revisit_sound sound entity).mono (fun _ h => h.elim) fun _ h => h)

/-- After a call that has returned, its name is resolved, and no further name is left marked. -/
theorem resolve_ok {m : Memory α} (sound : g.Sound m) {name : String} {a : α}
    (returned : (resolve g m name).1 = .ok a) :
    g.Grows name m (resolve g m name).2 ∧ (resolve g m name).2.resolved.get? name = some a := by
  rcases resolve_cases sound name with ⟨b, found, h⟩ | ⟨_, h⟩ | ⟨_, unmarked, h⟩ | ⟨e, entity, _, h⟩
  · rw [h] at returned ⊢
    obtain rfl := Except.ok.inj returned
    exact ⟨.refl g name m, found⟩
  · simp [h] at returned
  · rw [h] at returned ⊢
    obtain ⟨m', visited, found⟩ := answer_eq_ok returned
    have ended := visit_sound g.maxDepth.toNat [] sound unmarked
    rw [visited] at ended ⊢
    rw [answer_ok found]
    exact ⟨ended.2.1, found⟩
  · rw [h] at returned
    obtain ⟨_, failed⟩ := revisit_eq_error g m name e
    simp [failed, answer] at returned

/-- A call returns a form exactly when the name derives it within the depth and reaches no name that
an earlier call has left marked. -/
theorem resolve_eq_ok_iff {m : Memory α} (sound : g.Sound m) (name : String) (a : α) :
    (resolve g m name).1 = .ok a ↔
      (∃ d, g.Derives name d a ∧ (d : Int) ≤ g.maxDepth) ∧ ¬ g.Blocked m name := by
  constructor
  · intro returned
    obtain ⟨grows, found⟩ := resolve_ok sound returned
    have sound' := (resolve_sound sound name).1
    have mark := sound'.marked name a found
    obtain ⟨d, v, _, value, derived, within⟩ := sound'.derived name mark
    obtain rfl : v = a := by simpa [value] using found
    refine ⟨⟨d, derived, within⟩, ?_⟩
    rintro ⟨x, reached, visiting⟩
    exact sound'.not_blocked mark ⟨x, reached, grows.kept x _ visiting⟩
  · rintro ⟨⟨d, derived, within⟩, clear⟩
    rcases resolve_cases sound name
      with ⟨b, found, h⟩ | ⟨unknown, _⟩ | ⟨_, unmarked, h⟩ | ⟨_, _, visiting, _⟩
    · obtain ⟨d', v, _, value, derived', _⟩ := sound.derived name (sound.marked name b found)
      obtain rfl : v = b := by simpa [value] using found
      rw [h, (derived.unique derived').2]
    · simp [derived.known] at unknown
    · have ended := (visit_sound g.maxDepth.toNat [] sound unmarked).and
        (visit_of_derives derived g.maxDepth.toNat [] sound (by omega) unmarked clear)
      rw [h]
      cases visited : visit g g.maxDepth.toNat [] m name with
      | error failure =>
          rw [visited] at ended
          obtain ⟨_, _, short⟩ := ended
          omega
      | ok m' =>
          rw [visited] at ended
          obtain ⟨⟨sound', _, mark⟩, _⟩ := ended
          obtain ⟨d', v, _, value, derived', _⟩ := sound'.derived name mark
          rw [answer_ok value, (derived.unique derived').2]
    · exact absurd ⟨name, .refl, visiting⟩ clear

/-- With nothing known before, only the graph decides. -/
theorem resolveFresh_eq_ok_iff (g : Lineage α) (name : String) (a : α) :
    g.resolveFresh name = .ok a ↔ ∃ d, g.Derives name d a ∧ (d : Int) ≤ g.maxDepth := by
  have clear : ¬ g.Blocked ({} : Memory α) name := by
    rintro ⟨x, _, visiting⟩
    simp [OrderedMap.get?] at visiting
  unfold resolveFresh
  rw [resolve_eq_ok_iff (.empty g)]
  exact ⟨fun h => h.1, fun h => ⟨h, clear⟩⟩

end UiMarkup.Lineage
