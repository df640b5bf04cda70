import UiMarkup.Proofs.Lineage.History

/-!
The faults of a walk are true of the graph. The names on the path are a chain from the name
that is resolved to the one that is visited, and they are the names that are marked as being
visited: so a name met again closes a cycle. A chain is reported as too long with one entity
more than the depth allows.
-/

namespace UiMarkup.Lineage

variable {α : Type} {g : Lineage α}

/-! Chains. -/

theorem foldl_max_mem (xs : List Nat) (start : Nat) :
    xs.foldl max start = start ∨ xs.foldl max start ∈ xs := by
  induction xs generalizing start with
  | nil => exact .inl rfl
  | cons x xs ih =>
      rw [List.foldl_cons]
      by_cases h : start ≤ x
      · rw [Nat.max_eq_right h]
        exact .inr ((ih x).elim (fun heq => by simp [heq]) (List.mem_cons_of_mem x))
      · rw [Nat.max_eq_left (by omega)]
        exact (ih start).imp_right (List.mem_cons_of_mem x)

/-- A chain from a name is as long as the derived length says. -/
theorem Derives.exists_chain {name : String} {d : Nat} {v : α} (h : g.Derives name d v) :
    ∃ rest, g.IsChain (name :: rest) ∧ (name :: rest).length = d := by
  induction h with
  | @intro name e depth value entity parents ih =>
      rcases foldl_max_mem ((g.parents e).map depth) 0 with none | longest
      · exact ⟨[], ⟨by simp, by simpa using has_of_get? entity, by simp⟩, by simp [none]⟩
      · obtain ⟨p, hp, deepest⟩ := List.mem_map.mp longest
        obtain ⟨rest, chain, length⟩ := ih p hp
        refine ⟨p :: rest, ⟨by simp, ?_, ?_⟩, ?_⟩
        · exact List.forall_mem_cons.mpr ⟨has_of_get? entity, chain.known⟩
        · exact List.isChain_cons_cons.mpr ⟨⟨e, entity, hp⟩, chain.linked⟩
        · rw [List.length_cons, length, ← deepest]
          omega

/-- No name comes twice in a chain from a name that derives. -/
theorem Derives.nodup_chain {name : String} {d : Nat} {v : α} (h : g.Derives name d v)
    {rest : List String} (linked : (name :: rest).IsChain g.Parent) : (name :: rest).Nodup := by
  induction rest generalizing name d v with
  | nil => simp
  | cons next rest ih =>
      obtain ⟨link, linked'⟩ := List.isChain_cons_cons.mp linked
      obtain ⟨d', v', derived, _⟩ := h.of_parent link
      refine List.nodup_cons.mpr ⟨?_, ih derived linked'⟩
      intro again
      have reached : Relation.TransGen g.Parent name name := by
        have forward := (linked.imp fun _ _ => Relation.TransGen.single).pairwise
        exact List.rel_of_pairwise_cons forward again
      exact h.not_cyclic reached

theorem isChain_concat {path : List String} {name parent : String}
    (linked : (path ++ [name]).IsChain g.Parent) (link : g.Parent name parent) :
    (path ++ [name] ++ [parent]).IsChain g.Parent := by
  rw [List.isChain_append]
  refine ⟨linked, by simp, ?_⟩
  intro x hx y hy
  obtain rfl : name = x := by simpa using hx
  obtain rfl : parent = y := by simpa using hy
  exact link

/-- Only the last name of a chain need be looked up: the others have parents. -/
theorem IsChain.of_linked {path : List String} {name : String}
    (linked : (path ++ [name]).IsChain g.Parent) (known : g.entities.has name = true) :
    g.IsChain (path ++ [name]) := by
  refine ⟨by simp, ?_, linked⟩
  induction path with
  | nil => simpa using known
  | cons first path ih =>
      rw [List.cons_append, List.isChain_cons] at linked
      obtain ⟨next, after⟩ : ∃ next, (path ++ [name]).head? = some next := by cases path <;> simp
      obtain ⟨e, entity, _⟩ := linked.1 next after
      exact List.forall_mem_cons.mpr ⟨has_of_get? entity, ih linked.2⟩

/-! The path. -/

/-- Names that lead from one name to another, which is behind them. -/
structure Leads (g : Lineage α) (root : String) (path : List String) (name : String) : Prop where
  start : (path ++ [name]).head? = some root
  linked : (path ++ [name]).IsChain g.Parent
  nodup : (path ++ [name]).Nodup

/-- The names that are marked as being visited are those on the path. -/
def OnPath (m : Memory α) (path : List String) : Prop :=
  ∀ x, m.marks.get? x = some .visiting ↔ x ∈ path

namespace Leads

variable {root name parent : String} {path : List String}

theorem nil (g : Lineage α) (name : String) : g.Leads name [] name :=
  ⟨rfl, by simp, by simp⟩

theorem reaches (h : g.Leads root path name) : g.Reaches root name := by
  obtain ⟨start, linked, _⟩ := h
  cases path with
  | nil =>
      obtain rfl : name = root := by simpa using start
      exact .refl
  | cons first path =>
      obtain rfl : first = root := by simpa using start
      exact List.relationReflTransGen_of_exists_isChain_cons (path ++ [name]) linked (by simp)

theorem extend (h : g.Leads root path name) (link : g.Parent name parent)
    (new : parent ∉ path ++ [name]) : g.Leads root (path ++ [name]) parent where
  start := by rw [List.head?_append, h.start]; rfl
  linked := isChain_concat h.linked link
  nodup := by simpa using h.nodup.concat new

end Leads

theorem OnPath.mark {m : Memory α} {path : List String} {name : String} (h : OnPath m path) :
    OnPath (m.mark name) (path ++ [name]) := by
  intro x
  by_cases same : x = name
  · simp [same]
  · simpa [same] using h x

theorem OnPath.of_grows {root : String} {m m' : Memory α} {path : List String} (h : OnPath m path)
    (grows : g.Grows root m m') : OnPath m' path := fun x =>
  ⟨fun visiting => (h x).mp (grows.visiting visiting), fun mem => grows.kept x _ ((h x).mpr mem)⟩

/-! Faults. -/

/-- What a fault says about the names that are reached from a name. -/
def Fault.TrueOf (g : Lineage α) (name : String) : Fault → Prop
  | .unknown missing => missing = name ∧ g.entities.has name = false
  | .notFound parent child => g.Reaches name child ∧ g.Parent child parent ∧
      g.entities.has parent = false
  | .circular chain => ∃ path again, chain = path ++ [again] ∧ path.head? = some name ∧
      chain.IsChain g.Parent ∧ path.Nodup ∧ again ∈ path ∧ (chain.length : Int) ≤ g.maxDepth + 1
  | .tooDeep first => g.Reaches name first ∧ ∃ rest, g.IsChain (first :: rest) ∧
      (first :: rest).Nodup ∧ ((first :: rest).length : Int) = max g.maxDepth 0 + 1
  | .emptyPath => False

/-- A visit that has no room left finds a chain from the first name on the path. -/
theorem Leads.tooDeep {root name : String} {path : List String} (h : g.Leads root path name)
    (known : g.entities.has name = true) (full : path.length = g.maxDepth.toNat) :
    (Fault.tooDeep (path.headD name)).TrueOf g root := by
  have chain := IsChain.of_linked h.linked known
  have length : ((path ++ [name]).length : Int) = max g.maxDepth 0 + 1 := by
    rw [List.length_append, List.length_singleton]
    omega
  have nodup := h.nodup
  have start := h.start
  cases path with
  | nil =>
      obtain rfl : name = root := by simpa using start
      exact ⟨.refl, [], chain, nodup, length⟩
  | cons first path =>
      obtain rfl : first = root := by simpa using start
      exact ⟨.refl, path ++ [name], chain, nodup, length⟩

/-- A parent that is on the path closes a cycle. -/
theorem Leads.circular {root name parent : String} {path : List String} (h : g.Leads root path name)
    (link : g.Parent name parent) (again : parent ∈ path ++ [name])
    (fits : ((path ++ [name]).length : Int) ≤ g.maxDepth) :
    (Fault.circular (path ++ [name] ++ [parent])).TrueOf g root := by
  refine ⟨path ++ [name], parent, rfl, h.start, ?_, h.nodup, again, ?_⟩
  · exact isChain_concat h.linked link
  · rw [List.length_append, List.length_singleton]
    omega

/-- Looking at the parents of a name fails with a fault that is true of the graph,
when each visit does. -/
theorem visitParents_trueOf {act : Memory α → String → Except (Failure α) (Memory α)}
    (acts : ∀ m p, g.Sound m → m.marks.get? p = none → g.Visited p m (act m p))
    {root child : String} {path : List String} (leads : g.Leads root path child)
    (fits : ((path ++ [child]).length : Int) ≤ g.maxDepth) (ps : List String)
    (links : ∀ p ∈ ps, g.Parent child p)
    (works : ∀ p ∈ ps, ∀ m, g.Sound m → OnPath m (path ++ [child]) → m.marks.get? p = none →
      g.entities.has p = true → Ends (fun _ => True) (fun failure => failure.fault.TrueOf g root)
      (act m p))
    {m : Memory α} (sound : g.Sound m) (onPath : OnPath m (path ++ [child])) :
    Ends (fun _ => True) (fun failure => failure.fault.TrueOf g root)
      (visitParents g act (path ++ [child]) child ps m) := by
  induction ps generalizing m with
  | nil => trivial
  | cons p ps ih =>
      have link := links p (by simp)
      have later : ∀ {m' : Memory α}, g.Sound m' → g.Grows p m m' →
          Ends (fun _ => True) (fun failure => failure.fault.TrueOf g root)
            (visitParents g act (path ++ [child]) child ps m') := by
        intro m' sound' grows
        exact ih (fun q hq => links q (List.mem_cons_of_mem _ hq))
          (fun q hq => works q (List.mem_cons_of_mem _ hq)) sound' (onPath.of_grows grows)
      rw [visitParents]
      split
      · next missing => exact ⟨leads.reaches, link, missing⟩
      · next present =>
        cases mark : m.marks.get? p with
        | some state =>
            cases state with
            | visiting => exact leads.circular link ((onPath p).mp mark) fits
            | resolved => exact later sound (.refl g p m)
        | none =>
            have result := (acts m p sound mark).and
              (works p (by simp) m sound onPath mark (by simpa using present))
            exact (result.mono (fun _ h => h.1) fun _ h => h.2).bind fun m' h => later h.1 h.2.1

/-- Where a name is left, a chain from it is as long as the longest of its
parents' chains and one more. -/
theorem finish_trueOf {root name : String} {m : Memory α} {e : α} (sound : g.Sound m)
    (entity : g.entities.get? name = some e)
    (parents : ∀ p ∈ g.parents e, m.marks.get? p = some .resolved)
    (reached : g.Reaches root name) (fits : 0 < g.maxDepth) :
    Ends (fun _ => True) (fun failure => failure.fault.TrueOf g root) (finish g m name e) := by
  unfold finish
  split
  · next deep =>
    have derived := sound.derives_combine entity parents
    have within : ((g.parents e).map fun p => (m.depth.get? p).getD 0).foldl max 0 ≤
        g.maxDepth.toNat := by
      apply foldl_max_le 0 (Nat.zero_le _)
      intro d hd
      obtain ⟨p, hp, rfl⟩ := List.mem_map.mp hd
      obtain ⟨d, _, depth, _, _, le⟩ := sound.derived p (parents p hp)
      rw [depth, Option.getD_some]
      omega
    obtain ⟨rest, chain, length⟩ := derived.exists_chain
    refine ⟨reached, rest, chain, derived.nodup_chain chain.linked, ?_⟩
    rw [depthOf] at length deep
    omega
  · trivial

/-- On the room below the depth: the path takes up the rest of it. -/
theorem visit_trueOf (room : Nat) {path : List String} {root name : String} {m : Memory α}
    (sound : g.Sound m) (leads : g.Leads root path name) (onPath : OnPath m path)
    (unmarked : m.marks.get? name = none) (known : g.entities.has name = true)
    (roomy : path.length + room = g.maxDepth.toNat) :
    Ends (fun _ => True) (fun failure => failure.fault.TrueOf g root)
      (visit g room path m name) := by
  obtain ⟨e, entity⟩ := get?_of_has known
  induction room generalizing path m name e with
  | zero =>
      rw [visit_zero entity]
      exact leads.tooDeep known (by omega)
  | succ room ih =>
      rw [visit_succ entity]
      have links : ∀ p ∈ g.parents e, g.Parent name p := fun p hp => ⟨e, entity, hp⟩
      have acts (m : Memory α) (p : String) (sound : g.Sound m)
          (unmarked : m.marks.get? p = none) :=
        visit_sound room (path ++ [name]) sound unmarked
      have longer : (path ++ [name]).length + room = g.maxDepth.toNat := by
        rw [List.length_append, List.length_singleton]
        omega
      have works : ∀ p ∈ g.parents e, ∀ m, g.Sound m → OnPath m (path ++ [name]) →
          m.marks.get? p = none →
          g.entities.has p = true →
            Ends (fun _ => True) (fun failure => failure.fault.TrueOf g root)
              (visit g room (path ++ [name]) m p) := by
        intro p hp m sound onPath unmarked known
        have new : p ∉ path ++ [name] := by
          intro mem
          simp [(onPath p).mpr mem] at unmarked
        obtain ⟨e', entity'⟩ := get?_of_has known
        exact ih sound (leads.extend (links p hp) new) onPath unmarked known longer e' entity'
      have parents :=
        (visitParents_sound acts (path ++ [name]) (g.parents e) links (sound.mark unmarked)).and
          (visitParents_trueOf acts leads (by omega) (g.parents e) links works
            (sound.mark unmarked) onPath.mark)
      refine (parents.mono (fun _ h => h.1) fun _ h => h.2).bind ?_
      rintro m₁ ⟨sound₁, -, all⟩
      exact finish_trueOf sound₁ entity all leads.reaches (by omega)

/-- With nothing known before, a call that fails says what is true of the graph. The chain of a
circular fault starts with the name of the call, and its last name is the first that it comes to
again. A name that is too deep begins a chain with one entity more than the depth allows; under a
negative depth, as under none, that is one entity. -/
theorem trueOf_of_resolveFresh (g : Lineage α) (name : String) {fault : Fault}
    (failed : g.resolveFresh name = .error fault) : fault.TrueOf g name := by
  have onPath : OnPath ({} : Memory α) [] := by
    intro x
    simp [OrderedMap.get?]
  cases known : g.entities.has name with
  | false =>
      rw [resolveFresh, resolve_of_unknown rfl known] at failed
      obtain rfl := Except.error.inj failed
      exact ⟨rfl, known⟩
  | true =>
      have ended := (visit_sound g.maxDepth.toNat [] (.empty g) rfl).and
        (visit_trueOf g.maxDepth.toNat (.empty g) (.nil g name) onPath rfl known (by simp))
      rw [resolveFresh, resolve_of_unmarked rfl known rfl] at failed
      generalize visit g g.maxDepth.toNat [] {} name = result at failed ended
      cases result with
      | error failure =>
          obtain rfl := Except.error.inj failed
          exact ended.2
      | ok m =>
          obtain ⟨⟨sound, _, mark⟩, _⟩ := ended
          obtain ⟨_, v, _, value, _⟩ := sound.derived name mark
          simp [answer_ok value] at failed

/-- A cycle that does not come back to the name that leads into it. -/
def knot : Lineage (List Nat × List String) :=
  listed [("a", [1], ["b"]), ("b", [2], ["c"]), ("c", [3], ["d", "b"]), ("d", [4], [])] 4

theorem trueOf_of_resolveFresh_knot :
    (knot.resolveFresh "a" = .error (.circular ["a", "b", "c", "b"]) ∧
      (Fault.circular ["a", "b", "c", "b"]).TrueOf knot "a") ∧
    (broken.resolveFresh "f" = .error (.notFound "ghost" "e") ∧
      (Fault.notFound "ghost" "e").TrueOf broken "f") ∧
    broken.resolveFresh "d" = .error (.tooDeep "d") ∧ (Fault.tooDeep "d").TrueOf broken "d" := by
  have around : knot.resolveFresh "a" = .error (.circular ["a", "b", "c", "b"]) := by cbv
  have missing : broken.resolveFresh "f" = .error (.notFound "ghost" "e") := by cbv
  have deep : broken.resolveFresh "d" = .error (.tooDeep "d") := by cbv
  exact ⟨⟨around, trueOf_of_resolveFresh knot "a" around⟩,
    ⟨missing, trueOf_of_resolveFresh broken "f" missing⟩, deep,
    trueOf_of_resolveFresh broken "d" deep⟩

/-- An entity without parents, where the depth allows fewer entities than none. -/
def crushed : Lineage (List Nat × List String) := listed [("a", [1], [])] (-2)

/-- Under a negative depth a call fails although there is no chain of one
entity more than the depth. -/
theorem tooDeep_crushed_of_no_chain : crushed.resolveFresh "a" = .error (.tooDeep "a") ∧
    ¬ ∃ chain : List String, (chain.length : Int) = crushed.maxDepth + 1 := by
  refine ⟨by cbv, ?_⟩
  rintro ⟨chain, length⟩
  have depth : crushed.maxDepth = -2 := rfl
  omega

end UiMarkup.Lineage
