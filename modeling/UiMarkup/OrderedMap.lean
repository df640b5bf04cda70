/-!
Maps that remember the order in which their keys came in. A key that is
written again keeps its place.
-/

namespace UiMarkup

/-- Pairs of a key and its value, in the order of arrival. -/
abbrev OrderedMap (κ α : Type) := List (κ × α)

namespace OrderedMap

variable {κ α : Type} [DecidableEq κ]

def get? (m : OrderedMap κ α) (k : κ) : Option α :=
  (List.find? (fun p => p.1 = k) m).map Prod.snd

def has (m : OrderedMap κ α) (k : κ) : Bool := (m.get? k).isSome

def keys (m : OrderedMap κ α) : List κ := List.map Prod.fst m

def put : OrderedMap κ α → κ → α → OrderedMap κ α
  | [], k, a => [(k, a)]
  | (k', a') :: m, k, a => if k' = k then (k, a) :: m else (k', a') :: put m k a

def erase (m : OrderedMap κ α) (k : κ) : OrderedMap κ α := List.filter (fun p => p.1 ≠ k) m

/-- Writes all pairs of the second map into the first. -/
def putAll (m n : OrderedMap κ α) : OrderedMap κ α :=
  List.foldl (fun acc p => put acc p.1 p.2) m n

/-- Changes the value of a key, which starts out as a given one. -/
def adjust (m : OrderedMap κ α) (k : κ) (start : α) (f : α → α) : OrderedMap κ α :=
  m.put k (f ((m.get? k).getD start))

theorem get?_put (m : OrderedMap κ α) (k k' : κ) (a : α) :
    (m.put k a).get? k' = if k' = k then some a else m.get? k' := by
  induction m with
  | nil => by_cases h : k' = k <;> simp [put, get?, h, eq_comm]
  | cons p m ih =>
    obtain ⟨k₀, a₀⟩ := p
    by_cases h₀ : k₀ = k
    · subst h₀
      by_cases h : k' = k₀
      · simp [put, get?, h]
      · have : ¬ k₀ = k' := fun e => h e.symm
        simp [put, get?, h, this]
    · by_cases h₁ : k₀ = k'
      · subst h₁
        simp [put, get?, h₀]
      · simp only [get?] at ih
        simp [put, get?, h₀, h₁, ih]

theorem has_iff_mem_keys (m : OrderedMap κ α) (k : κ) : m.has k = true ↔ k ∈ m.keys := by
  simp [has, get?, keys]

theorem mem_of_get?_eq_some {m : OrderedMap κ α} {k : κ} {a : α} (h : m.get? k = some a) :
    (k, a) ∈ m := by
  obtain ⟨p, found, rfl⟩ := Option.map_eq_some_iff.mp h
  have key : p.1 = k := by simpa using List.find?_some found
  exact key ▸ List.mem_of_find?_eq_some found

theorem get?_erase (m : OrderedMap κ α) (k k' : κ) :
    (m.erase k).get? k' = if k' = k then none else m.get? k' := by
  rw [get?, erase, List.find?_filter]
  by_cases hk : k' = k
  · subst hk
    simp
  · have hsame (p : κ × α) : decide (decide (p.1 ≠ k) = true ∧ decide (p.1 = k') = true) =
        decide (p.1 = k') := by
      by_cases hp : p.1 = k' <;> simp [hp, hk]
    simp only [hsame, if_neg hk, get?]

theorem mem_put {m : OrderedMap κ α} {k : κ} {a : α} {p : κ × α} (h : p ∈ m.put k a) :
    p = (k, a) ∨ p ∈ m := by
  induction m with
  | nil => exact .inl (by simpa [put] using h)
  | cons q m ih =>
      rw [put] at h
      split at h
      · obtain rfl | h := List.mem_cons.mp h
        · exact .inl rfl
        · exact .inr (List.mem_cons_of_mem q h)
      · obtain rfl | h := List.mem_cons.mp h
        · exact .inr List.mem_cons_self
        · exact (ih h).imp_right (List.mem_cons_of_mem q)

theorem mem_putAll {m n : OrderedMap κ α} {p : κ × α} (h : p ∈ m.putAll n) : p ∈ m ∨ p ∈ n := by
  induction n generalizing m with
  | nil => exact .inl h
  | cons q n ih =>
      obtain h | h := ih h
      · obtain rfl | h := mem_put h
        · exact .inr List.mem_cons_self
        · exact .inl h
      · exact .inr (List.mem_cons_of_mem q h)

end OrderedMap
end UiMarkup
