import Mathlib.Data.List.Chain
import Mathlib.Logic.Relation
import Mathlib.Tactic.Choose
import UiMarkup.Theme.Lineage

/-!
The graph of names and their parents. `Derives` says what an entity becomes when its parents are
resolved first, and how long its longest chain is, with no walk and no memory. A graph derives all
of its entities when every parent is there and chains are bounded; an entity that derives is on no
cycle, and its chains are no longer than the derived length.
-/

namespace UiMarkup.Lineage

variable {α : Type}

/-- An entity lists a name as one of its parents. -/
def Parent (g : Lineage α) (child parent : String) : Prop :=
  ∃ e, g.entities.get? child = some e ∧ parent ∈ g.parents e

/-- Some steps from a name to its parents, perhaps none, lead to another name. -/
def Reaches (g : Lineage α) : String → String → Prop := Relation.ReflTransGen g.Parent

/-- Every parent that an entity lists is an entity. -/
def Complete (g : Lineage α) : Prop :=
  ∀ child parent, g.Parent child parent → g.entities.has parent = true

def Acyclic (g : Lineage α) : Prop := ∀ name, ¬ Relation.TransGen g.Parent name name

/-- One entity or more, each followed by one of its parents. -/
structure IsChain (g : Lineage α) (chain : List String) : Prop where
  ne_nil : chain ≠ []
  known : ∀ name ∈ chain, g.entities.has name = true
  linked : chain.IsChain g.Parent

/-- No chain has more entities than the depth allows. -/
def Bounded (g : Lineage α) : Prop := ∀ chain, g.IsChain chain → (chain.length : Int) ≤ g.maxDepth

/-- An entity over the resolved forms of its parents; without parents it stays as it is. -/
def assemble (g : Lineage α) (e : α) (parents : List α) : α :=
  match g.parents e with
  | [] => e
  | _ => g.merge e parents

/-- The longest chain from a name has so many entities, and its resolved form is the given one. -/
inductive Derives (g : Lineage α) : String → Nat → α → Prop
  | intro {name : String} {e : α} (depth : String → Nat) (value : String → α)
      (entity : g.entities.get? name = some e)
      (parents : ∀ p ∈ g.parents e, Derives g p (depth p) (value p)) :
      Derives g name (1 + ((g.parents e).map depth).foldl max 0)
        (g.assemble e ((g.parents e).map value))

theorem has_of_get? {g : Lineage α} {name : String} {e : α} (h : g.entities.get? name = some e) :
    g.entities.has name = true := by
  simp [OrderedMap.has, h]

theorem get?_of_has {g : Lineage α} {name : String} (h : g.entities.has name = true) :
    ∃ e, g.entities.get? name = some e :=
  Option.isSome_iff_exists.mp h

theorem le_foldl_max {xs : List Nat} {x : Nat} (start : Nat) (h : x ≤ start ∨ x ∈ xs) :
    x ≤ xs.foldl max start := by
  induction xs generalizing start with
  | nil => simpa using h
  | cons y ys ih =>
      apply ih
      rcases h with h | h
      · exact .inl (by omega)
      · rcases List.mem_cons.mp h with rfl | h
        · exact .inl (by omega)
        · exact .inr h

theorem foldl_max_le {xs : List Nat} {bound : Nat} (start : Nat) (hs : start ≤ bound)
    (h : ∀ x ∈ xs, x ≤ bound) : xs.foldl max start ≤ bound := by
  induction xs generalizing start with
  | nil => exact hs
  | cons y ys ih =>
      have hy := h y (by simp)
      exact ih (max start y) (by omega) fun x hx => h x (by simp [hx])

namespace Derives

variable {g : Lineage α} {name parent : String} {d d' : Nat} {v v' : α}

theorem known (h : g.Derives name d v) : g.entities.has name = true := by
  cases h with
  | intro _ _ entity _ => exact has_of_get? entity

/-- Length and form are determined by the name. -/
theorem unique (h : g.Derives name d v) (h' : g.Derives name d' v') : d = d' ∧ v = v' := by
  induction h generalizing d' v' with
  | @intro name e depth value entity parents ih =>
      cases h' with
      | @intro _ e' depth' value' entity' parents' =>
          obtain rfl : e = e' := by simpa [entity] using entity'
          have hd : (g.parents e).map depth = (g.parents e).map depth' :=
            List.map_congr_left fun p hp => (ih p hp (parents' p hp)).1
          have hv : (g.parents e).map value = (g.parents e).map value' :=
            List.map_congr_left fun p hp => (ih p hp (parents' p hp)).2
          rw [hd, hv]
          exact ⟨rfl, rfl⟩

theorem of_parent (h : g.Derives name d v) (hp : g.Parent name parent) :
    ∃ d' v', g.Derives parent d' v' ∧ d' < d := by
  cases h with
  | @intro _ e depth value entity parents =>
      obtain ⟨e', entity', mem⟩ := hp
      obtain rfl : e = e' := by simpa [entity] using entity'
      have hle : depth parent ≤ ((g.parents e).map depth).foldl max 0 :=
        le_foldl_max 0 (.inr (List.mem_map_of_mem mem))
      exact ⟨depth parent, value parent, parents parent mem, by omega⟩

theorem of_transGen (h : g.Derives name d v) (hr : Relation.TransGen g.Parent name parent) :
    ∃ d' v', g.Derives parent d' v' ∧ d' < d := by
  induction hr with
  | single hp => exact h.of_parent hp
  | tail _ hp ih =>
      obtain ⟨d₁, v₁, h₁, hlt₁⟩ := ih
      obtain ⟨d₂, v₂, h₂, hlt₂⟩ := h₁.of_parent hp
      exact ⟨d₂, v₂, h₂, by omega⟩

/-- The derived length goes down along a cycle, so there is none. -/
theorem not_cyclic (h : g.Derives name d v) : ¬ Relation.TransGen g.Parent name name := by
  intro cycle
  obtain ⟨d', v', h', hlt⟩ := h.of_transGen cycle
  exact absurd (h.unique h').1 (by omega)

theorem chain_length_le {rest : List String} (h : g.Derives name d v)
    (chain : (name :: rest).IsChain g.Parent) : (name :: rest).length ≤ d := by
  induction rest generalizing name d v with
  | nil =>
      cases h with
      | intro _ _ _ _ => simp only [List.length_cons, List.length_nil]; omega
  | cons next rest ih =>
      obtain ⟨hp, chain⟩ := List.isChain_cons_cons.mp chain
      obtain ⟨d', v', h', hlt⟩ := h.of_parent hp
      have := ih h' chain
      simp only [List.length_cons] at this ⊢
      omega

end Derives

/-- Where all parents are there, an entity whose chains are bounded derives a length within that
bound. The induction is on the bound: chains from a parent are one entity shorter. -/
theorem derives_of_chain_length_le {g : Lineage α} (complete : g.Complete) (bound : Nat)
    {name : String} (known : g.entities.has name = true)
    (short : ∀ rest, g.IsChain (name :: rest) → (name :: rest).length ≤ bound) :
    ∃ d v, g.Derives name d v ∧ d ≤ bound := by
  induction bound generalizing name with
  | zero =>
      have := short [] ⟨by simp, by simpa using known, by simp⟩
      simp at this
  | succ bound ih =>
      obtain ⟨e, entity⟩ := get?_of_has known
      have step : ∀ p ∈ g.parents e, ∃ d v, g.Derives p d v ∧ d ≤ bound := by
        intro p hp
        have link : g.Parent name p := ⟨e, entity, hp⟩
        apply ih (complete name p link)
        intro rest chain
        have longer := short (p :: rest)
          ⟨by simp, List.forall_mem_cons.mpr ⟨known, chain.known⟩,
            List.isChain_cons_cons.mpr ⟨link, chain.linked⟩⟩
        simpa using longer
      have : Nonempty α := ⟨e⟩
      choose! depth value derived within using step
      refine ⟨_, _, .intro depth value entity derived, ?_⟩
      have : ((g.parents e).map depth).foldl max 0 ≤ bound := by
        apply foldl_max_le 0 (Nat.zero_le _)
        simpa using within
      omega

/-- Every entity derives within the depth exactly when the graph is
complete, acyclic and bounded. -/
theorem derives_iff (g : Lineage α) :
    (∀ name, g.entities.has name = true → ∃ d v, g.Derives name d v ∧ (d : Int) ≤ g.maxDepth) ↔
      g.Complete ∧ g.Acyclic ∧ g.Bounded := by
  constructor
  · intro h
    refine ⟨?_, ?_, ?_⟩
    · rintro child parent ⟨e, entity, mem⟩
      obtain ⟨d, v, hd, _⟩ := h child (has_of_get? entity)
      obtain ⟨_, _, hp, _⟩ := hd.of_parent ⟨e, entity, mem⟩
      exact hp.known
    · intro name cycle
      obtain ⟨_, hp, _⟩ := Relation.TransGen.head'_iff.mp cycle
      obtain ⟨e, entity, _⟩ := hp
      obtain ⟨d, v, hd, _⟩ := h name (has_of_get? entity)
      exact hd.not_cyclic cycle
    · intro chain hc
      cases chain with
      | nil => exact absurd rfl hc.ne_nil
      | cons name rest =>
          obtain ⟨d, v, hd, hle⟩ := h name (hc.known name (by simp))
          have := hd.chain_length_le hc.linked
          omega
  · rintro ⟨complete, -, bounded⟩ name known
    obtain ⟨d, v, hd, hle⟩ := derives_of_chain_length_le complete g.maxDepth.toNat known
      fun rest chain => by have := bounded _ chain; omega
    have one := bounded [name] ⟨by simp, by simpa using known, by simp⟩
    simp only [List.length_cons, List.length_nil] at one
    exact ⟨d, v, hd, by omega⟩

end UiMarkup.Lineage
