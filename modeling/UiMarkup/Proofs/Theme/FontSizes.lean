import UiMarkup.Proofs.Theme.Validity

/-!
Font sizes of resolved themes. Each size is that of the nearest ancestor which sets it, so the base
size of a theme may come from another ancestor than its small and its large size. These then need
not fit it; nothing else of a typography becomes wrong when valid ones are inherited.
-/

namespace UiMarkup

theorem findSome?_cons_eq_or {β γ : Type} (f : β → Option γ) (x : β) (xs : List β) :
    (x :: xs).findSome? f = (f x).or (xs.findSome? f) := by
  rw [List.findSome?_cons]
  cases f x <;> rfl

namespace Typography

/-! ### What is checked -/

/-- The values that are set are in the ranges that do not depend on the base size. -/
structure InRange (t : Typography) : Prop where
  base : ∀ x, t.sizeBase = some x → baseProblems x = []
  small : ∀ x, t.sizeSmall = some x → ¬ x ≤ 0
  large : ∀ x, t.sizeLarge = some x → ¬ x ≤ 0
  height : ∀ x, t.lineHeight = some x → heightProblems x = []

/-- A size that is set does not fit a base size. -/
inductive Misfit (t : Typography) (base : Float) : TypographyProblem → Float → Prop
  | small {x : Float} (set : t.sizeSmall = some x) (le : base ≤ x) :
      Misfit t base .smallNotSmaller x
  | large {x : Float} (set : t.sizeLarge = some x) (le : x ≤ base) : Misfit t base .largeNotLarger x

theorem getD_map_eq_nil_iff {f : Float → List TypographyProblem} {x : Option Float} :
    (x.map f).getD [] = [] ↔ ∀ y, x = some y → f y = [] := by
  cases x <;> simp

theorem smallProblems_eq_nil_iff {base x : Float} :
    smallProblems base x = [] ↔ ¬ x ≤ 0 ∧ ¬ base ≤ x := by
  rw [smallProblems]
  split
  · simp_all
  · split <;> simp_all

theorem largeProblems_eq_nil_iff {base x : Float} :
    largeProblems base x = [] ↔ ¬ x ≤ 0 ∧ ¬ x ≤ base := by
  rw [largeProblems]
  split
  · simp_all
  · split <;> simp_all

theorem problems_eq_nil_iff (t : Typography) :
    t.problems = [] ↔ t.InRange ∧ ∀ p x, ¬ t.Misfit (t.sizeBase.getD defaultBase) p x := by
  simp only [problems, List.append_eq_nil_iff, getD_map_eq_nil_iff, smallProblems_eq_nil_iff,
    largeProblems_eq_nil_iff]
  constructor
  · rintro ⟨⟨⟨hbase, hsmall⟩, hlarge⟩, hheight⟩
    refine ⟨⟨hbase, fun x hx => (hsmall x hx).1, fun x hx => (hlarge x hx).1, hheight⟩, ?_⟩
    rintro _ x (⟨hx, hle⟩ | ⟨hx, hle⟩)
    · exact (hsmall x hx).2 hle
    · exact (hlarge x hx).2 hle
  · rintro ⟨h, hfit⟩
    exact ⟨⟨⟨h.base, fun x hx => ⟨h.small x hx, fun hle => hfit _ x (.small hx hle)⟩⟩,
      fun x hx => ⟨h.large x hx, fun hle => hfit _ x (.large hx hle)⟩⟩, h.height⟩

/-- Where all is in range, the problems are the sizes that do not fit the base size. -/
theorem InRange.mem_problems_iff {t : Typography} (h : t.InRange) {p : TypographyProblem} :
    p ∈ t.problems ↔ ∃ x, t.Misfit (t.sizeBase.getD defaultBase) p x := by
  have hbase : (t.sizeBase.map baseProblems).getD [] = [] := getD_map_eq_nil_iff.mpr h.base
  have hheight : (t.lineHeight.map heightProblems).getD [] = [] := getD_map_eq_nil_iff.mpr h.height
  rw [problems, hbase, hheight, List.nil_append, List.append_nil, List.mem_append]
  constructor
  · rintro (hp | hp)
    · cases hx : t.sizeSmall with
      | none => simp [hx] at hp
      | some x =>
          have hpositive := h.small x hx
          rw [hx, Option.map_some, Option.getD_some, smallProblems, if_neg hpositive] at hp
          split at hp
          · obtain rfl := List.mem_singleton.mp hp
            exact ⟨x, .small hx (by assumption)⟩
          · cases hp
    · cases hx : t.sizeLarge with
      | none => simp [hx] at hp
      | some x =>
          have hpositive := h.large x hx
          rw [hx, Option.map_some, Option.getD_some, largeProblems, if_neg hpositive] at hp
          split at hp
          · obtain rfl := List.mem_singleton.mp hp
            exact ⟨x, .large hx (by assumption)⟩
          · cases hp
  · rintro ⟨x, ⟨hx, hle⟩ | ⟨hx, hle⟩⟩
    · exact .inl (by simp [hx, smallProblems, h.small x hx, hle])
    · exact .inr (by simp [hx, largeProblems, h.large x hx, hle])

/-! ### What is inherited -/

/-- Field by field, the first value that is set in some typographies. -/
def firstSet (ts : List Typography) : Typography where
  family := ts.findSome? family
  sizeBase := ts.findSome? sizeBase
  sizeSmall := ts.findSome? sizeSmall
  sizeLarge := ts.findSome? sizeLarge
  weight := ts.findSome? weight
  lineHeight := ts.findSome? lineHeight

theorem firstSet_singleton (t : Typography) : firstSet [t] = t := by
  simp [firstSet]

theorem firstSet_cons (t : Typography) (ts : List Typography) :
    firstSet (t :: ts) = t.withDefaults (firstSet ts) := by
  simp only [firstSet, withDefaults, findSome?_cons_eq_or]

theorem InRange.firstSet {ts : List Typography} (h : ∀ t ∈ ts, t.InRange) :
    (firstSet ts).InRange := by
  have hfrom {f : Typography → Option Float} {x : Float} (hx : ts.findSome? f = some x) :
      ∃ t, t.InRange ∧ f t = some x := by
    obtain ⟨t, ht, hf⟩ := List.exists_of_findSome?_eq_some hx
    exact ⟨t, h t ht, hf⟩
  constructor
  · intro x hx
    obtain ⟨t, ht, hf⟩ := hfrom hx
    exact ht.base x hf
  · intro x hx
    obtain ⟨t, ht, hf⟩ := hfrom hx
    exact ht.small x hf
  · intro x hx
    obtain ⟨t, ht, hf⟩ := hfrom hx
    exact ht.large x hf
  · intro x hx
    obtain ⟨t, ht, hf⟩ := hfrom hx
    exact ht.height x hf

/-- The size that does not fit comes from one of the typographies. -/
theorem Misfit.exists_of_firstSet {ts : List Typography} {base : Float} {p : TypographyProblem}
    {x : Float} (h : (firstSet ts).Misfit base p x) : ∃ t ∈ ts, t.Misfit base p x := by
  cases h with
  | small set le =>
      obtain ⟨t, ht, hx⟩ := List.exists_of_findSome?_eq_some set
      exact ⟨t, ht, .small hx le⟩
  | large set le =>
      obtain ⟨t, ht, hx⟩ := List.exists_of_findSome?_eq_some set
      exact ⟨t, ht, .large hx le⟩

end Typography

namespace ThemeMap

/-- A theme, its parent, the parent of that one, and so on to the last. -/
inductive Ancestry (m : ThemeMap) : String → List Theme → Prop
  | last {name : String} {t : Theme} (found : m.get? name = some t) (alone : t.parents = []) :
      Ancestry m name [t]
  | more {name parent : String} {t : Theme} {chain : List Theme} (found : m.get? name = some t)
      (link : t.parents = [parent]) (above : Ancestry m parent chain) : Ancestry m name (t :: chain)

variable {m r : ThemeMap} {name : String}

theorem Ancestry.known {chain : List Theme} (h : m.Ancestry name chain) :
    ∀ t ∈ chain, ∃ n, m.get? n = some t := by
  induction h with
  | last found _ =>
      intro t ht
      obtain rfl := List.mem_singleton.mp ht
      exact ⟨_, found⟩
  | more found _ _ ih =>
      intro t ht
      obtain rfl | ht := List.mem_cons.mp ht
      · exact ⟨_, found⟩
      · exact ih t ht

theorem parents_eq (t : Theme) : t.parents = [] ∨ ∃ p, t.parents = [p] := by
  rw [Theme.parents]
  split
  · split <;> simp
  · exact .inl rfl

/-- What holds of a theme without a parent, and of a theme over what its parent comes to,
holds along the chain. -/
theorem exists_ancestry_of_derives {P : Theme → List Theme → Prop}
    (own : ∀ n t, m.get? n = some t → P t [t])
    (inherit : ∀ n t v chain, m.get? n = some t → P v chain → P (t.inherit v) (t :: chain))
    {d : Nat} {v : Theme} (derived : m.lineage.Derives name d v) :
    ∃ chain, m.Ancestry name chain ∧ P v chain := by
  induction derived with
  | @intro name t depth form found parents ih =>
      rw [assemble_eq]
      obtain hparents | ⟨p, hparents⟩ := parents_eq t
      · rw [hparents]
        exact ⟨[t], .last found hparents, own name t found⟩
      · obtain ⟨chain, above, hform⟩ := ih p (by simp [lineage, hparents])
        rw [hparents]
        exact ⟨t :: chain, .more found hparents above, inherit name t (form p) chain found hform⟩

theorem typography_of_derives {d : Nat} {v : Theme} (derived : m.lineage.Derives name d v) :
    ∃ chain, m.Ancestry name chain ∧ v.typography =
      Typography.firstSet (chain.map Theme.typography) := by
  refine exists_ancestry_of_derives
    (P := fun v chain => v.typography = .firstSet (chain.map Theme.typography))
    (fun _ t _ => (Typography.firstSet_singleton t.typography).symm)
    (fun _ t v chain _ hv => ?_) derived
  rw [List.map_cons, Typography.firstSet_cons, ← hv]
  rfl

/-- All sizes of a resolved theme are in range when those of the themes are right. They fit the
base size unless it was set by another theme than the size: by one nearer to the theme, or above
one that set no base size. -/
theorem problems_resolveAll (valid : ∀ name t, m.get? name = some t → t.typography.problems = [])
    (resolved : m.resolveAll = .ok r) {v : Theme} (value : r.get? name = some v) :
    v.typography.InRange ∧ (v.typography.sizeBase = none → v.typography.problems = []) ∧
    ∀ base, v.typography.sizeBase = some base →
      (∀ p, p ∈ v.typography.problems ↔ ∃ x, v.typography.Misfit base p x) ∧
      ∃ chain, m.Ancestry name chain ∧ chain.findSome? (fun t => t.typography.sizeBase) =
        some base ∧ ∀ p x, v.typography.Misfit base p x →
          ∃ t ∈ chain, t.typography.Misfit base p x ∧ t.typography.sizeBase ≠ some base := by
  obtain ⟨keys, values⟩ := Lineage.resolveAllFresh_ok (resolveAll_eq_ok_iff.mp resolved)
  have known : m.lineage.entities.has name = true := by
    rw [OrderedMap.has_iff_mem_keys, ← keys]
    exact (OrderedMap.has_iff_mem_keys r name).mp (by simp [OrderedMap.has, value])
  obtain ⟨d, v', derived, _, value'⟩ := values name known
  obtain rfl : v' = v := Option.some.inj (value'.symm.trans value)
  obtain ⟨chain, ancestry, hv⟩ := typography_of_derives derived
  have hown : ∀ t ∈ chain.map Theme.typography, t.problems = [] := by
    intro _ hmem
    obtain ⟨t, ht, rfl⟩ := List.mem_map.mp hmem
    obtain ⟨n, found⟩ := ancestry.known t ht
    exact valid n t found
  have hrange : v'.typography.InRange := by
    rw [hv]
    exact .firstSet fun t ht => ((t.problems_eq_nil_iff).mp (hown t ht)).1
  -- a theme on the chain whose size does not fit is right about its own base size, so
  -- that one is different
  have hother {base : Float} {p : TypographyProblem} {x : Float}
      (h : v'.typography.Misfit base p x) :
      ∃ t ∈ chain, t.typography.Misfit base p x ∧
        t.typography.sizeBase.getD Typography.defaultBase ≠ base := by
    rw [hv] at h
    obtain ⟨_, hmem, hmisfit⟩ := h.exists_of_firstSet
    have hfit := ((Typography.problems_eq_nil_iff _).mp (hown _ hmem)).2
    obtain ⟨t, ht, rfl⟩ := List.mem_map.mp hmem
    refine ⟨t, ht, hmisfit, fun hbase => ?_⟩
    rw [hbase] at hfit
    exact hfit p x hmisfit
  have hbases : v'.typography.sizeBase = chain.findSome? fun t => t.typography.sizeBase := by
    rw [hv]
    exact List.findSome?_map
  refine ⟨hrange, fun hnone => ?_,
    fun base hbase => ⟨fun p => ?_, chain, ancestry, hbases ▸ hbase, fun p x h => ?_⟩⟩
  · refine (Typography.problems_eq_nil_iff _).mpr ⟨hrange, fun p x h => ?_⟩
    obtain ⟨t, ht, -, hne⟩ := hother h
    have hall := List.findSome?_eq_none_iff.mp (hbases ▸ hnone)
    rw [hall t ht, hnone] at hne
    exact hne rfl
  · rw [hrange.mem_problems_iff, hbase, Option.getD_some]
  · obtain ⟨t, ht, hmisfit, hne⟩ := hother h
    refine ⟨t, ht, hmisfit, fun hsame => ?_⟩
    rw [hsame] at hne
    exact hne rfl

/-- A theme with large print, and one of notes on top of it whose large size
would be large elsewhere. -/
def notes (base large : Float) : ThemeMap :=
  [("notes",
    { name := "notes", parent := some "print", typography := { sizeLarge := some large } }),
    ("print", { name := "print", typography := { sizeBase := some base } })]

theorem exists_resolveAll_notes (base large : Float) :
    ∃ r v, (notes base large).resolveAll = .ok r ∧
    r.get? "notes" = some v ∧ v.typography = { sizeBase := some base, sizeLarge := some large } :=
  ⟨_, _, by cbv, by cbv, rfl⟩

theorem problems_of_get?_notes (name : String) (t : Theme)
    (found : (notes 20 18).get? name = some t) : t.typography.problems = [] := by
  have all : ∀ p ∈ notes 20 18, p.2.typography.problems = [] := by
    simp only [notes, List.mem_cons, List.not_mem_nil, or_false, forall_eq_or_imp, forall_eq]
    exact ⟨rfl, rfl⟩
  exact all _ (OrderedMap.mem_of_get?_eq_some found)

theorem problems_resolveAll_notes :
    ∃ r v, (notes 20 18).resolveAll = .ok r ∧ r.get? "notes" = some v ∧
    v.typography.problems ≠ [] ∧ v.typography.InRange ∧
    ∃ chain, (notes 20 18).Ancestry "notes" chain ∧
      ∃ t ∈ chain, t.typography.Misfit 20 .largeNotLarger 18 ∧ t.typography.sizeBase ≠ some 20 := by
  obtain ⟨r, v, resolved, value, htypography⟩ := exists_resolveAll_notes 20 18
  obtain ⟨hrange, _, hbase⟩ := problems_resolveAll problems_of_get?_notes resolved value
  obtain ⟨hproblems, chain, ancestry, _, hmisfit⟩ := hbase 20 (by rw [htypography])
  have hlarge : v.typography.Misfit 20 .largeNotLarger 18 :=
    .large (by rw [htypography]) (by decide)
  exact ⟨r, v, resolved, value, List.ne_nil_of_mem ((hproblems _).mpr ⟨18, hlarge⟩), hrange, chain,
    ancestry, hmisfit _ _ hlarge⟩

/-- The large size of a theme need not be larger than the base size that it inherits. -/
theorem exists_problems_ne_nil_notes : ∃ r v,
    (∀ name t, (notes 20 18).get? name = some t → t.typography.problems = []) ∧
      (notes 20 18).resolveAll = .ok r ∧ r.get? "notes" = some v ∧ v.typography.problems ≠ [] := by
  obtain ⟨r, v, resolved, value, htypography⟩ := exists_resolveAll_notes 20 18
  refine ⟨r, v, problems_of_get?_notes, resolved, value, ?_⟩
  rw [htypography]
  decide

end ThemeMap
end UiMarkup
