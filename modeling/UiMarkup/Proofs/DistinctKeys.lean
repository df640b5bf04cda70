import Mathlib.Data.Finset.Card
import Mathlib.Data.List.Nodup
import UiMarkup.OrderedMap

/-!
Ordered maps in which no key comes twice. Writing keeps them so: a key that is there keeps its
place, a new one comes last. So when all pairs of a map were written into a second one,
writing them once more changes nothing. Of pairs that are written one after another, the last
one of each key is kept.
-/

namespace UiMarkup.OrderedMap

variable {κ α : Type} [DecidableEq κ]

theorem keys_put (m : OrderedMap κ α) (k : κ) (a : α) :
    (m.put k a).keys = if k ∈ m.keys then m.keys else m.keys ++ [k] := by
  induction m with
  | nil => rfl
  | cons p m ih =>
      by_cases same : p.1 = k
      · simp [put, keys, same]
      · have other : k ≠ p.1 := Ne.symm same
        rw [put, if_neg same]
        change p.1 :: keys (put m k a) =
            if k ∈ p.1 :: keys m then p.1 :: keys m else p.1 :: keys m ++ [k]
        rw [ih]
        by_cases known : k ∈ keys m <;> simp [known, other]

theorem nodup_keys_put {m : OrderedMap κ α} (h : m.keys.Nodup) (k : κ) (a : α) :
    (m.put k a).keys.Nodup := by
  rw [keys_put]
  split
  · exact h
  · next unknown => exact List.concat_eq_append ▸ h.concat unknown

theorem prefix_keys_put (m : OrderedMap κ α) (k : κ) (a : α) : m.keys <+: (m.put k a).keys := by
  rw [keys_put]
  split
  · exact List.prefix_rfl
  · exact List.prefix_append _ _

theorem nodup_keys_putAll {m : OrderedMap κ α} (h : m.keys.Nodup) (n : OrderedMap κ α) :
    (m.putAll n).keys.Nodup := by
  induction n generalizing m with
  | nil => exact h
  | cons p n ih => exact ih (nodup_keys_put h p.1 p.2)

theorem prefix_keys_putAll (m n : OrderedMap κ α) : m.keys <+: (m.putAll n).keys := by
  induction n generalizing m with
  | nil => exact List.prefix_rfl
  | cons p n ih => exact (prefix_keys_put m p.1 p.2).trans (ih (m.put p.1 p.2))

theorem get?_of_mem {m : OrderedMap κ α} (h : m.keys.Nodup) {k : κ} {a : α} (mem : (k, a) ∈ m) :
    m.get? k = some a := by
  induction m with
  | nil => cases mem
  | cons p m ih =>
      obtain ⟨unknown, rest⟩ := List.nodup_cons.mp h
      obtain rfl | mem := List.mem_cons.mp mem
      · simp [get?]
      · have other : p.1 ≠ k := by
          rintro rfl
          exact unknown (List.mem_map.mpr ⟨_, mem, rfl⟩)
        simpa [get?, other] using ih rest mem

theorem put_append {m : OrderedMap κ α} {k : κ} (h : k ∉ m.keys) (n : OrderedMap κ α) (a : α) :
    put (m ++ n) k a = m ++ n.put k a := by
  induction m with
  | nil => rfl
  | cons p m ih =>
      obtain ⟨other, unknown⟩ := not_or.mp (List.mem_cons.not.mp h)
      rw [List.cons_append, put, if_neg (Ne.symm other), ih unknown, List.cons_append]

/-- The pairs that are already written stand in front; the keys of the others are to
come in the same order. -/
theorem putAll_append {done todo old : OrderedMap κ α} (distinct : (keys (done ++ todo)).Nodup)
    (order : old.keys <+: todo.keys) : putAll (done ++ old) todo = done ++ todo := by
  induction todo generalizing done old with
  | nil =>
      have none : old = [] := List.map_eq_nil_iff.mp (List.prefix_nil.mp order)
      rw [none]
      rfl
  | cons p todo ih =>
      have unknown : p.1 ∉ keys done := by
        rw [keys, List.map_append] at distinct
        exact fun mem => (List.nodup_append.mp distinct).2.2 _ mem _ (by simp) rfl
      have written : put (done ++ old) p.1 p.2 = done ++ [p] ++ old.tail := by
        rw [put_append unknown]
        cases old with
        | nil => simp [put]
        | cons q old =>
            have same : q.1 = p.1 := (List.cons_prefix_cons.mp order).1
            simp [put, same]
      change putAll (put (done ++ old) p.1 p.2) todo = done ++ p :: todo
      rw [written, ih (by simpa using distinct), List.append_assoc]
      · rfl
      · cases old with
        | nil => exact List.nil_prefix
        | cons q old => exact (List.cons_prefix_cons.mp order).2

/-- What was written into a map can be written into it again. -/
theorem putAll_putAll {m : OrderedMap κ α} (h : m.keys.Nodup) (n : OrderedMap κ α) :
    m.putAll (m.putAll n) = m.putAll n := by
  change putAll ([] ++ m) (m.putAll n) = [] ++ m.putAll n
  exact putAll_append (nodup_keys_putAll h n) (prefix_keys_putAll m n)

/-- Pairs with new keys come behind the others. -/
theorem putAll_eq_append {m n : OrderedMap κ α} (distinct : (keys (m ++ n)).Nodup) :
    m.putAll n = m ++ n := by
  have h : putAll (m ++ []) n = m ++ n := putAll_append distinct List.nil_prefix
  rwa [List.append_nil] at h

/-! ### The last value of each key -/

theorem get?_append (m n : OrderedMap κ α) (k : κ) :
    get? (m ++ n) k = (m.get? k).or (n.get? k) := by
  simp [get?, List.find?_append, Option.map_or]

theorem get?_putAll (m n : OrderedMap κ α) (k : κ) :
    (m.putAll n).get? k = (get? n.reverse k).or (m.get? k) := by
  induction n generalizing m with
  | nil => rfl
  | cons p n ih =>
      change (putAll (m.put p.1 p.2) n).get? k = _
      rw [ih, get?_put, List.reverse_cons, get?_append, Option.or_assoc]
      by_cases same : k = p.1
      · simp [get?, same]
      · simp [get?, same, Ne.symm same]

theorem get?_reverse {m : OrderedMap κ α} (distinct : m.keys.Nodup) (k : κ) :
    get? m.reverse k = m.get? k := by
  have hreverse : (keys m.reverse).Nodup := by rwa [keys, List.map_reverse, List.nodup_reverse]
  cases found : m.get? k with
  | some a => exact get?_of_mem hreverse (List.mem_reverse.mpr (mem_of_get?_eq_some found))
  | none =>
      cases last : get? m.reverse k with
      | none => rfl
      | some a =>
          rw [get?_of_mem distinct (List.mem_reverse.mp (mem_of_get?_eq_some last))]
            at found; cases found

/-- The members of a list, each once, are as many only if the list has none of them twice. -/
theorem length_eq_iff_nodup {l l' : List κ} (distinct : l.Nodup) (same : ∀ k, k ∈ l ↔ k ∈ l') :
    l.length = l'.length ↔ l'.Nodup := by
  have hsame : l.toFinset = l'.toFinset := by
    ext k
    simp [same]
  rw [← List.toFinset_card_of_nodup distinct, hsame]
  exact Multiset.toFinset_card_eq_card_iff_nodup

/-- The map has each key of some pairs once, with the last value that it has there. -/
structure HoldsLast (m : OrderedMap κ α) (pairs : List (κ × α)) : Prop where
  distinct : m.keys.Nodup
  value : ∀ k, m.get? k = get? pairs.reverse k

namespace HoldsLast

variable {m n : OrderedMap κ α} {pairs pairs' : List (κ × α)}

theorem nil : HoldsLast ([] : OrderedMap κ α) [] := ⟨List.nodup_nil, fun _ => rfl⟩

theorem of_distinct (distinct : m.keys.Nodup) : m.HoldsLast m :=
  ⟨distinct, fun k => (get?_reverse distinct k).symm⟩

theorem put (h : m.HoldsLast pairs) (k : κ) (a : α) :
    (m.put k a).HoldsLast (pairs ++ [(k, a)]) := by
  refine ⟨nodup_keys_put h.distinct k a, fun k' => ?_⟩
  rw [get?_put, h.value, List.reverse_concat]
  by_cases same : k' = k
  · simp [get?, same]
  · simp [get?, same, Ne.symm same]

/-- What the second map has goes before what the first has. -/
theorem putAll (h : m.HoldsLast pairs) (h' : n.HoldsLast pairs') :
    (m.putAll n).HoldsLast (pairs ++ pairs') := by
  refine ⟨nodup_keys_putAll h.distinct n, fun k => ?_⟩
  rw [get?_putAll, get?_reverse h'.distinct, h'.value, h.value, List.reverse_append, get?_append]

theorem mem_keys_iff (h : m.HoldsLast pairs) {k : κ} : k ∈ m.keys ↔ k ∈ keys pairs := by
  rw [← has_iff_mem_keys, has, h.value, ← has, has_iff_mem_keys, keys, List.map_reverse,
    List.mem_reverse, keys]

theorem exists_get? (h : m.HoldsLast pairs) {k : κ} {a : α} (mem : (k, a) ∈ pairs) :
    ∃ a', m.get? k = some a' ∧ (k, a') ∈ pairs := by
  have hkey : m.has k = true :=
    (has_iff_mem_keys m k).mpr (h.mem_keys_iff.mpr (List.mem_map_of_mem mem))
  obtain ⟨a', found⟩ := Option.isSome_iff_exists.mp hkey
  exact ⟨a', found, List.mem_reverse.mp (mem_of_get?_eq_some (h.value k ▸ found))⟩

theorem length_le (h : m.HoldsLast pairs) : m.length ≤ pairs.length := by
  have hsubset : m.keys ⊆ keys pairs := fun _ hk => h.mem_keys_iff.mp hk
  simpa [keys] using (List.subperm_of_subset h.distinct hsubset).length_le

/-- There are as many pairs as before only if no key came twice. -/
theorem length_eq_iff (h : m.HoldsLast pairs) : m.length = pairs.length ↔ (keys pairs).Nodup := by
  rw [← length_eq_iff_nodup h.distinct fun _ => h.mem_keys_iff, keys, keys,
    List.length_map, List.length_map]

end HoldsLast

end UiMarkup.OrderedMap
