import Mathlib
import UiMarkup.Proofs.Spelling.EditDistance

/-!
The names that are offered for an unknown one. They are the candidates within the distance, as often
as they are given, the closest first and names at one distance in their own order; so the order in
which candidates are given is not seen.
-/

namespace UiMarkup.Spelling

/-- The distance of two names in lower case. -/
def nameDistance (target name : String) : Nat :=
  distance (Text.lower target.toList) (Text.lower name.toList)

/-- Names go by their distance first and then by themselves. -/
def rank (target name : String) : ℕ ×ₗ String := toLex (nameDistance target name, name)

theorem rank_le_iff {target a b : String} : rank target a ≤ rank target b ↔
    nameDistance target a < nameDistance target b ∨
    nameDistance target a = nameDistance target b ∧ a ≤ b := by
  simp [rank, Prod.Lex.toLex_le_toLex]

theorem rank_injective (target : String) : Function.Injective (rank target) := fun _ _ h =>
  (Prod.mk.inj (toLex.injective h)).2

theorem notAfter_iff (p q : String × Nat) :
    notAfter p q = true ↔ (toLex p.swap : ℕ ×ₗ String) ≤ toLex q.swap := by
  simp [notAfter, Prod.Lex.toLex_le_toLex]

theorem pairwise_mergeSort_notAfter (measured : List (String × Nat)) :
    (measured.mergeSort notAfter).Pairwise fun p q =>
      (toLex p.swap : ℕ ×ₗ String) ≤ toLex q.swap := by
  refine (List.pairwise_mergeSort ?_ ?_ measured).imp fun h => (notAfter_iff _ _).mp h
  · intro p q r
    simp only [notAfter_iff]
    exact le_trans
  · intro p q
    simp only [Bool.or_eq_true, notAfter_iff]
    exact le_total _ _

/-- The candidates with their distances. -/
def measure (target : String) (candidates : List String) : List (String × Nat) :=
  candidates.map fun name => (name, nameDistance target name)

theorem similar_eq (target : String) (candidates : List String) (maxDistance : Int) :
    similar target candidates maxDistance =
      (((measure target candidates).mergeSort notAfter).filter fun p =>
        (p.2 : Int) ≤ maxDistance).map Prod.fst := rfl

theorem similar_perm (target : String) (candidates : List String) (maxDistance : Int) :
    (similar target candidates maxDistance).Perm
      (candidates.filter fun name => (nameDistance target name : Int) ≤ maxDistance) := by
  have sorted := List.mergeSort_perm (measure target candidates) notAfter
  have kept := (sorted.filter fun p => (p.2 : Int) ≤ maxDistance).map Prod.fst
  have unmeasured : ((measure target candidates).filter fun p => (p.2 : Int) ≤ maxDistance).map
      Prod.fst = candidates.filter fun name => (nameDistance target name : Int) ≤ maxDistance := by
    rw [measure, List.filter_map, List.map_map]
    exact List.map_id _
  rw [similar_eq, ← unmeasured]
  exact kept

theorem similar_ascending (target : String) (candidates : List String) (maxDistance : Int) :
    (similar target candidates maxDistance).Pairwise fun a b => rank target a ≤ rank target b := by
  have measured : ∀ p ∈ (measure target candidates).mergeSort notAfter,
      toLex p.swap = rank target p.1 := by
    intro p hp
    obtain ⟨name, _, rfl⟩ := List.mem_map.mp (List.mem_mergeSort.mp hp)
    rfl
  have ascending := (pairwise_mergeSort_notAfter (measure target candidates)).imp_of_mem
    (S := fun p q => rank target p.1 ≤ rank target q.1) fun {p q} hp hq h => by
      rwa [measured p hp, measured q hq] at h
  rw [similar_eq]
  exact List.pairwise_map.mpr (ascending.filter _)

/-- Names in ascending order are determined by how often each is among them. -/
theorem similar_congr (target : String) (maxDistance : Int) {candidates others : List String}
    (h : others.Perm candidates) :
    similar target others maxDistance = similar target candidates maxDistance := by
  refine List.Perm.eq_of_pairwise
    (fun a b _ _ hab hba => rank_injective target (le_antisymm hab hba))
    (similar_ascending target others maxDistance)
    (similar_ascending target candidates maxDistance) ?_
  exact (similar_perm target others maxDistance).trans
    ((h.filter _).trans (similar_perm target candidates maxDistance).symm)

/-- The distance is the least number of edits, the same both ways and no longer than over a third
text; the names that are offered are the candidates that are close enough, in ascending order of
distance and name, whatever the order of the candidates. -/
theorem similar_ranked :
    (∀ s t, IsLeast {n | Edits n s t} (distance s t)) ∧ (∀ s t, distance s t = distance t s) ∧
    (∀ s t u, distance s u ≤ distance s t + distance t u) ∧
    ∀ target candidates maxDistance,
      (similar target candidates maxDistance).Perm
        (candidates.filter fun name => (nameDistance target name : Int) ≤ maxDistance) ∧
      ((similar target candidates maxDistance).Pairwise fun a b =>
        nameDistance target a < nameDistance target b ∨
        nameDistance target a = nameDistance target b ∧ a ≤ b) ∧
      ∀ others, others.Perm candidates →
        similar target others maxDistance = similar target candidates maxDistance :=
  ⟨isLeast_distance, distance_comm, distance_triangle, fun target candidates maxDistance =>
    ⟨similar_perm target candidates maxDistance,
      (similar_ascending target candidates maxDistance).imp rank_le_iff.mp,
      fun _ h => similar_congr target maxDistance h⟩⟩

/-- Two spellings of a name are equally far from it. -/
theorem similar_ranked_buttons :
    ["text", "button", "Button"].Perm ["Button", "text", "button"] ∧
      similar "buton" ["text", "button", "Button"] 2 = ["Button", "button"] ∧
      similar "buton" ["Button", "text", "button"] 2 = ["Button", "button"] := by
  have moved : ["text", "button", "Button"].Perm ["Button", "text", "button"] := by decide
  have offered : similar "buton" ["Button", "text", "button"] 2 = ["Button", "button"] := by cbv
  exact ⟨moved, ((similar_ranked.2.2.2 "buton" _ 2).2.2 _ moved).trans offered, offered⟩

end UiMarkup.Spelling
