import UiMarkup.Proofs.DistinctKeys
import UiMarkup.Widget.Builder

/-!
Attributes under their new names. Renamings are applied one after another, each to what the ones
before it left. So an attribute of a widget has the value of one of those that became it: of the
last old name in the table that was given, or else of the name itself.
-/

namespace UiMarkup.Renaming

variable {kind : Kind} {attributes : AttributeMap} {rs : List Renaming} {name : String}

/-- The renamings of some list that a kind of widgets has. -/
def ofKind (kind : Kind) (rs : List Renaming) : List Renaming :=
  match kind with
  | .custom _ => []
  | .builtin k => rs.filter fun r => r.kinds.contains k

theorem apply_of_not_has {r : Renaming} (h : attributes.has r.oldName = false) :
    apply attributes r = attributes := by
  rw [apply]
  split
  · rename_i hvalue
    simp [OrderedMap.has, hvalue] at h
  · rfl

/-- The renamings of other kinds, and those whose old name is not given, change nothing. -/
theorem fst_applyAll (kind : Kind) (attributes : AttributeMap) (rs : List Renaming) :
    (applyAll kind attributes rs).1 = (ofKind kind rs).foldl apply attributes := by
  induction rs generalizing attributes with
  | nil => cases kind <;> rfl
  | cons r rs ih =>
      cases kind with
      | custom _ => rfl
      | builtin k =>
          rw [ofKind] at ih ⊢
          rw [applyAll, concerns, List.filter_cons]
          cases hk : r.kinds.contains k with
          | false => exact ih attributes
          | true =>
              cases hold : attributes.has r.oldName with
              | true => exact ih (apply attributes r)
              | false => exact (ih attributes).trans (by simp [apply_of_not_has hold])

/-! ### Names before and after -/

def rename (name : String) (r : Renaming) : String := if name = r.oldName then r.newName else name

/-- The name that an attribute ends up with. -/
def finalName (rs : List Renaming) (name : String) : String := rs.foldl rename name

/-- The name that an attribute of a widget of some kind ends up with. -/
def nameIn (kind : Kind) (name : String) : String := finalName (ofKind kind renamings) name

/-- The names that one renaming makes a name of. -/
def before (r : Renaming) (name : String) : List String :=
  if name = r.newName then [r.oldName, r.newName] else if name = r.oldName then [] else [name]

/-- The names that renamings make a name of; the first of them that is given counts. -/
def sources : List Renaming → String → List String
  | [], name => [name]
  | r :: rs, name => (sources rs name).flatMap r.before

theorem mem_before_iff {r : Renaming} {name name' : String} :
    name ∈ r.before name' ↔ rename name r = name' := by
  rw [before, rename]
  grind

theorem mem_sources_iff {name name' : String} :
    name ∈ sources rs name' ↔ finalName rs name = name' := by
  induction rs generalizing name with
  | nil => simp [sources, finalName]
  | cons r rs ih => simp [sources, finalName, List.mem_flatMap, mem_before_iff, ih]

theorem sources_of_forall (h : ∀ r ∈ rs, name ≠ r.oldName ∧ name ≠ r.newName) :
    sources rs name = [name] := by
  induction rs with
  | nil => rfl
  | cons r rs ih =>
      obtain ⟨hr, hrs⟩ := List.forall_mem_cons.mp h
      simp [sources, ih hrs, before, hr]

theorem finalName_ne {old : String} (hname : name ≠ old) (hnew : ∀ r ∈ rs, r.newName ≠ old) :
    finalName rs name ≠ old := by
  induction rs generalizing name with
  | nil => exact hname
  | cons r rs ih =>
      obtain ⟨hr, hrs⟩ := List.forall_mem_cons.mp hnew
      refine ih ?_ hrs
      rw [rename]
      split
      · exact hr
      · exact hname

/-- No old name is left, since none is a new name. -/
theorem finalName_ne_oldName (apart : ∀ r ∈ rs, ∀ s ∈ rs, r.oldName ≠ s.newName) {r : Renaming}
    (hr : r ∈ rs) : finalName rs name ≠ r.oldName := by
  induction rs generalizing name with
  | nil => cases hr
  | cons s rs ih =>
      obtain rfl | hr := List.mem_cons.mp hr
      · have hnew : ∀ s ∈ r :: rs, s.newName ≠ r.oldName :=
          fun s hs => (apart r List.mem_cons_self s hs).symm
        change finalName rs (rename name r) ≠ r.oldName
        refine finalName_ne ?_ fun s hs => hnew s (List.mem_cons_of_mem r hs)
        rw [rename]
        split
        · exact hnew r List.mem_cons_self
        · assumption
      · exact ih
          (fun r hr t ht => apart r (List.mem_cons_of_mem s hr) t (List.mem_cons_of_mem s ht)) hr

/-! ### The value of a name -/

theorem get?_apply (attributes : AttributeMap) (r : Renaming) (name : String) :
    (apply attributes r).get? name = (r.before name).findSome? attributes.get? := by
  rw [before, apply]
  cases hold : attributes.get? r.oldName with
  | none =>
      dsimp only
      split
      · rename_i hname
        simp [hold, hname]
      · split
        · rename_i hname
          rw [hname, hold, List.findSome?_nil]
        · simp
  | some v =>
      dsimp only
      rw [OrderedMap.get?_put, OrderedMap.get?_erase]
      split
      · simp [hold]
      · split
        · rfl
        · simp

theorem findSome?_flatMap {α β γ : Type} (l : List α) (f : α → List β) (g : β → Option γ) :
    (l.flatMap f).findSome? g = l.findSome? fun a => (f a).findSome? g := by
  induction l with
  | nil => rfl
  | cons a l ih =>
      rw [List.flatMap_cons, List.findSome?_append, ih, List.findSome?_cons]
      cases (f a).findSome? g <;> rfl

theorem get?_foldl_apply (attributes : AttributeMap) (rs : List Renaming) (name : String) :
    (rs.foldl apply attributes).get? name = (sources rs name).findSome? attributes.get? := by
  induction rs generalizing attributes with
  | nil => simp [sources]
  | cons r rs ih =>
      rw [List.foldl_cons, ih, sources, findSome?_flatMap]
      exact congrArg (List.findSome? · _) (funext (get?_apply attributes r))

theorem get?_applyAll (kind : Kind) (attributes : AttributeMap) (rs : List Renaming)
    (name : String) :
    (applyAll kind attributes rs).1.get? name =
      (sources (ofKind kind rs) name).findSome? attributes.get? := by
  rw [fst_applyAll, get?_foldl_apply]

theorem mem_of_mem_ofKind {r : Renaming} (h : r ∈ ofKind kind rs) : r ∈ rs := by
  cases kind with
  | custom _ => cases h
  | builtin _ => exact List.mem_of_mem_filter h

theorem get?_applyAll_of_forall (h : ∀ r ∈ rs, name ≠ r.oldName ∧ name ≠ r.newName) :
    (applyAll kind attributes rs).1.get? name = attributes.get? name := by
  rw [get?_applyAll, sources_of_forall fun r hr => h r (mem_of_mem_ofKind hr)]
  simp

theorem get?_applyAll_oldName {k : WidgetKind} (apart : ∀ r ∈ rs, ∀ s ∈ rs, r.oldName ≠ s.newName)
    {r : Renaming} (hr : r ∈ rs) (hk : k ∈ r.kinds) :
    (applyAll (.builtin k) attributes rs).1.get? r.oldName = none := by
  have hmem : r ∈ ofKind (.builtin k) rs := List.mem_filter.mpr ⟨hr, by simpa using hk⟩
  rw [get?_applyAll, List.findSome?_eq_none_iff]
  refine fun name hname => absurd (mem_sources_iff.mp hname) (finalName_ne_oldName ?_ hmem)
  exact fun r hr s hs => apart r (mem_of_mem_ofKind hr) s (mem_of_mem_ofKind hs)

/-! ### The names that are left -/

theorem nodup_keys_foldl_apply (h : attributes.keys.Nodup) (rs : List Renaming) :
    (rs.foldl apply attributes).keys.Nodup := by
  induction rs generalizing attributes with
  | nil => exact h
  | cons r rs ih =>
      refine ih ?_
      rw [apply]
      split
      · refine OrderedMap.nodup_keys_put ?_ _ _
        exact h.sublist (List.filter_sublist.map Prod.fst)
      · exact h

theorem mem_keys_iff_of_sources {m m' : AttributeMap}
    (h : ∀ name, m.get? name = (sources rs name).findSome? m'.get?) :
    name ∈ m.keys ↔ name ∈ m'.keys.map (finalName rs) := by
  rw [← OrderedMap.has_iff_mem_keys, OrderedMap.has, h, List.findSome?_isSome_iff, List.mem_map]
  simp only [mem_sources_iff, ← OrderedMap.has_iff_mem_keys, OrderedMap.has, and_comm]

end UiMarkup.Renaming
