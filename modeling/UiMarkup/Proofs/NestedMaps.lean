import Mathlib
import UiMarkup.Proofs.DistinctKeys

/-!
Maps of maps. Each inner map holds the last value of each key that was written into it, and all of
them together are one map from pairs of keys.
-/

namespace UiMarkup.OrderedMap

variable {κ ν α : Type}

/-- Pairs as entries under a key. -/
def below (k : κ) (pairs : List (ν × α)) : List ((κ × ν) × α) := pairs.map fun p => ((k, p.1), p.2)

/-- The entries of the inner maps, each with both of its keys. -/
def flat (m : OrderedMap κ (OrderedMap ν α)) : OrderedMap (κ × ν) α :=
  List.flatMap (fun q => below q.1 q.2) m

theorem length_flat (m : OrderedMap κ (OrderedMap ν α)) :
    m.flat.length = (List.map (fun q => q.2.length) m).sum := by
  simp [flat, below, List.length_flatMap]

theorem nodup_keys_flat {m : OrderedMap κ (OrderedMap ν α)} (distinct : m.keys.Nodup)
    (inner : ∀ q ∈ m, (keys q.2).Nodup) : m.flat.keys.Nodup := by
  have hbelow (q : κ × OrderedMap ν α) :
      (below q.1 q.2).map Prod.fst = (keys q.2).map (Prod.mk q.1) := by
    simp [keys, below]
  rw [keys, flat, List.map_flatMap]
  simp only [hbelow]
  refine List.nodup_flatMap.mpr ⟨fun q hq => (inner q hq).map (Prod.mk_right_injective q.1), ?_⟩
  refine (List.pairwise_map.mp distinct).imp fun {q q'} hne p hp hp' => ?_
  obtain ⟨_, -, rfl⟩ := List.mem_map.mp hp
  obtain ⟨_, -, heq⟩ := List.mem_map.mp hp'
  exact hne (congrArg Prod.fst heq).symm

variable [DecidableEq κ]

theorem get?_adjust (m : OrderedMap κ α) (k k' : κ) (start : α) (f : α → α) :
    (m.adjust k start f).get? k' = if k' = k then some (f ((m.get? k).getD start)) else m.get? k' :=
  get?_put m k k' _

/-! ### Entries under one key -/

/-- What some entries, each with two keys, have under a first key. -/
def under (k : κ) (entries : List ((κ × ν) × α)) : List (ν × α) :=
  entries.filterMap fun e => if e.1.1 = k then some (e.1.2, e.2) else none

theorem under_append (k : κ) (a b : List ((κ × ν) × α)) :
    under k (a ++ b) = under k a ++ under k b :=
  List.filterMap_append

theorem under_below (k k' : κ) (pairs : List (ν × α)) :
    under k' (below k pairs) = if k' = k then pairs else [] := by
  by_cases same : k' = k
  · subst same
    simp [under, below, List.filterMap_map]
  · simp [under, below, same, Ne.symm same]

theorem get?_under [DecidableEq ν] (k : κ) (n : ν) (entries : List ((κ × ν) × α)) :
    get? (under k entries) n = get? entries (k, n) := by
  induction entries with
  | nil => rfl
  | cons e entries ih =>
      obtain ⟨⟨k', n'⟩, a⟩ := e
      by_cases hk : k' = k
      · subst hk
        by_cases hn : n' = n
        · simp [under, get?, hn]
        · simpa [under, get?, hn] using ih
      · simpa [under, get?, hk] using ih

theorem under_flat {m : OrderedMap κ (OrderedMap ν α)} (distinct : m.keys.Nodup) (k : κ) :
    under k m.flat = (m.get? k).getD [] := by
  induction m with
  | nil => rfl
  | cons q m ih =>
      obtain ⟨unknown, rest⟩ := List.nodup_cons.mp distinct
      have hsplit : flat (q :: m) = below q.1 q.2 ++ flat m := rfl
      rw [hsplit, under_append, under_below, ih rest]
      by_cases same : k = q.1
      · subst same
        have habsent : List.find? (fun p => decide (p.1 = q.1)) m = none :=
          List.find?_eq_none.mpr fun p hp hkey =>
            unknown (of_decide_eq_true hkey ▸ List.mem_map_of_mem hp)
        simp [get?, habsent]
      · simp [get?, same, Ne.symm same]

variable [DecidableEq ν]

theorem get?_flat {m : OrderedMap κ (OrderedMap ν α)} (distinct : m.keys.Nodup) (k : κ) (n : ν) :
    m.flat.get? (k, n) = (m.get? k).bind fun inner => inner.get? n := by
  rw [← get?_under, under_flat distinct]
  cases m.get? k <;> rfl

/-! ### The last value of each pair of keys -/

/-- There is an inner map for each first key, and it holds the last value of each second
key under the first one. -/
structure NestedLast (m : OrderedMap κ (OrderedMap ν α)) (entries : List ((κ × ν) × α)) : Prop where
  distinct : m.keys.Nodup
  inner : ∀ k, ((m.get? k).getD []).HoldsLast (under k entries)

namespace NestedLast

variable {m : OrderedMap κ (OrderedMap ν α)} {entries : List ((κ × ν) × α)}

theorem nil : NestedLast ([] : OrderedMap κ (OrderedMap ν α)) [] := ⟨List.nodup_nil, fun _ => .nil⟩

/-- What is written into one inner map is written under its key. -/
theorem put (h : m.NestedLast entries) (k : κ) (n : ν) (a : α) :
    (m.adjust k [] (OrderedMap.put · n a)).NestedLast (entries ++ [((k, n), a)]) := by
  refine ⟨nodup_keys_put h.distinct k _, fun k' => ?_⟩
  have hunder : under k' (entries ++ [((k, n), a)]) =
      under k' entries ++ if k' = k then [(n, a)] else [] :=
    (under_append _ _ _).trans (congrArg _ (under_below k k' [(n, a)]))
  rw [get?_adjust, hunder]
  by_cases same : k' = k
  · subst same
    rw [if_pos rfl, if_pos rfl]
    exact (h.inner k').put n a
  · rw [if_neg same, if_neg same, List.append_nil]
    exact h.inner k'

theorem nodup_keys_of_mem (h : m.NestedLast entries) {q : κ × OrderedMap ν α} (hq : q ∈ m) :
    (keys q.2).Nodup := by
  have hinner := (h.inner q.1).distinct
  rwa [get?_of_mem h.distinct (a := q.2) hq] at hinner

/-- All inner maps as one hold the last value of each pair of keys. -/
theorem flat (h : m.NestedLast entries) : m.flat.HoldsLast entries where
  distinct := nodup_keys_flat h.distinct fun _ hq => h.nodup_keys_of_mem hq
  value := by
    rintro ⟨k, n⟩
    rw [← get?_under, under_flat h.distinct, (h.inner k).value, ← get?_under, under, under,
      List.filterMap_reverse]

theorem value (h : m.NestedLast entries) (k : κ) (n : ν) :
    ((m.get? k).bind fun inner => inner.get? n) = get? entries.reverse (k, n) := by
  rw [← get?_flat h.distinct, h.flat.value]

theorem exists_get? (h : m.NestedLast entries) {k : κ} {n : ν} {a : α}
    (mem : ((k, n), a) ∈ entries) :
    ∃ a', ((m.get? k).bind fun inner => inner.get? n) = some a' ∧ ((k, n), a') ∈ entries := by
  rw [← get?_flat h.distinct]
  exact h.flat.exists_get? mem

/-- What stands in an inner map was written there. -/
theorem mem_entries (h : m.NestedLast entries) {q : κ × OrderedMap ν α} (hq : q ∈ m) {p : ν × α}
    (hp : p ∈ q.2) : ((q.1, p.1), p.2) ∈ entries := by
  have hmem : ((q.1, p.1), p.2) ∈ m.flat :=
    List.mem_flatMap.mpr ⟨q, hq, List.mem_map.mpr ⟨p, hp, rfl⟩⟩
  exact List.mem_reverse.mp
    (mem_of_get?_eq_some (h.flat.value _ ▸ get?_of_mem h.flat.distinct hmem))

end NestedLast

end UiMarkup.OrderedMap
