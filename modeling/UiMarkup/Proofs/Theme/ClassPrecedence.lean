import UiMarkup.Proofs.DistinctKeys
import UiMarkup.Proofs.Lineage.Resolution
import UiMarkup.Theme.StyleClass

/-!
Where the values of a resolved style class come from. The classes that a class inherits from, in
depth-first order with each before its own parents, are one flat order of precedence: of every style
field, every layout field and every variant the first value that is set on it is taken. Each merge
of two classes puts the orders of its sides one behind the other.
-/

namespace UiMarkup

/-- Field by field, the first value that is set in some styles. -/
def Style.firstSet (styles : List Style) : Style where
  background := styles.findSome? Style.background
  color := styles.findSome? Style.color
  border := styles.findSome? Style.border
  shadow := styles.findSome? Style.shadow
  opacity := styles.findSome? Style.opacity
  transform := styles.findSome? Style.transform

/-- Field by field, the first value that is set in some layouts. -/
def Layout.firstSet (layouts : List Layout) : Layout where
  width := layouts.findSome? Layout.width
  height := layouts.findSome? Layout.height
  minWidth := layouts.findSome? Layout.minWidth
  maxWidth := layouts.findSome? Layout.maxWidth
  minHeight := layouts.findSome? Layout.minHeight
  maxHeight := layouts.findSome? Layout.maxHeight
  padding := layouts.findSome? Layout.padding
  spacing := layouts.findSome? Layout.spacing
  alignItems := layouts.findSome? Layout.alignItems
  justifyContent := layouts.findSome? Layout.justifyContent
  alignSelf := layouts.findSome? Layout.alignSelf
  alignX := layouts.findSome? Layout.alignX
  alignY := layouts.findSome? Layout.alignY
  direction := layouts.findSome? Layout.direction
  position := layouts.findSome? Layout.position
  top := layouts.findSome? Layout.top
  right := layouts.findSome? Layout.right
  bottom := layouts.findSome? Layout.bottom
  left := layouts.findSome? Layout.left
  zIndex := layouts.findSome? Layout.zIndex

theorem Style.firstSet_append (xs ys : List Style) :
    Style.firstSet (xs ++ ys) = (Style.firstSet xs).withDefaults (Style.firstSet ys) := by
  simp [Style.firstSet, Style.withDefaults, List.findSome?_append]

theorem Layout.firstSet_append (xs ys : List Layout) :
    Layout.firstSet (xs ++ ys) = (Layout.firstSet xs).withDefaults (Layout.firstSet ys) := by
  simp [Layout.firstSet, Layout.withDefaults, List.findSome?_append]

theorem Style.firstSet_singleton (s : Style) : Style.firstSet [s] = s := by
  simp [Style.firstSet]

theorem Layout.firstSet_singleton (l : Layout) : Layout.firstSet [l] = l := by
  simp [Layout.firstSet]

/-- What some values come to, unless there are none. -/
def ofSome? {β : Type} (first : List β → β) : List β → Option β
  | [] => none
  | b :: bs => some (first (b :: bs))

theorem ofSome?_append {β : Type} {first : List β → β} {merge : β → β → β}
    (h : ∀ xs ys, first (xs ++ ys) = merge (first xs) (first ys)) (xs ys : List β) :
    ofSome? first (xs ++ ys) = (ofSome? first xs).merge merge (ofSome? first ys) := by
  cases xs with
  | nil => cases ys <;> rfl
  | cons x xs =>
      cases ys with
      | nil => simp [ofSome?]
      | cons y ys => simpa [ofSome?] using h (x :: xs) (y :: ys)

theorem ofSome?_filterMap_eq_none_iff {β γ : Type} (first : List β → β) (f : γ → Option β)
    (xs : List γ) : ofSome? first (xs.filterMap f) = none ↔ ∀ x ∈ xs, f x = none := by
  rw [← List.filterMap_eq_nil_iff]
  cases xs.filterMap f <;> simp [ofSome?]

theorem eq_of_ofSome? {β : Type} {first : List β → β} {xs : List β} {b : β}
    (h : ofSome? first xs = some b) : b = first xs := by
  cases xs with
  | nil => simp [ofSome?] at h
  | cons x xs => exact (Option.some.inj h).symm

theorem layoutWithDefaults_eq (l m : Option Layout) :
    layoutWithDefaults l m = l.merge Layout.withDefaults m := by
  cases l <;> cases m <;> rfl

namespace Variants

variable {κ : Type} [DecidableEq κ]

theorem get?_map_entry (m n : Variants κ) (k : κ) :
    OrderedMap.get? (m.map (entryWithDefaults n)) k =
      (OrderedMap.get? m k).map fun s => (entryWithDefaults n (k, s)).2 := by
  induction m with
  | nil => rfl
  | cons p m ih =>
      by_cases same : p.1 = k
      · subst same
        simp [OrderedMap.get?, entryWithDefaults]
      · simpa [OrderedMap.get?, entryWithDefaults, same] using ih

theorem get?_filter_not_has (m n : Variants κ) (k : κ) :
    OrderedMap.get? (n.filter fun p => !OrderedMap.has m p.1) k =
      if OrderedMap.has m k then none else OrderedMap.get? n k := by
  induction n with
  | nil => simp [OrderedMap.get?]
  | cons p n ih =>
      rw [List.filter_cons]
      by_cases same : p.1 = k
      · subst same
        cases other : OrderedMap.has m p.1 with
        | true => simpa [other] using ih
        | false => simp [OrderedMap.get?]
      · have skip : OrderedMap.get? (p :: n) k = OrderedMap.get? n k := by
          simp [OrderedMap.get?, same]
        rw [skip, ← ih]
        split
        · simp [OrderedMap.get?, same]
        · rfl

/-- A variant of a key comes from the side that has one, and is merged where both have. -/
theorem get?_withDefaults (m n : Variants κ) (k : κ) :
    OrderedMap.get? (withDefaults m n) k =
      (OrderedMap.get? m k).merge Style.withDefaults (OrderedMap.get? n k) := by
  rw [withDefaults, OrderedMap.get?_append, get?_map_entry, get?_filter_not_has]
  cases own : OrderedMap.get? m k with
  | none => simp [OrderedMap.has, own]
  | some s =>
      cases other : OrderedMap.get? n k <;> simp [OrderedMap.has, own, entryWithDefaults, other]

end Variants

namespace ClassMap

/-- The classes on the depth-first walk from a name: its own class, and then the walk of each parent
in turn. A class that is reached in several ways is there as often. -/
inductive Ancestry (m : ClassMap) : String → List StyleClass → Prop
  | intro {name : String} {c : StyleClass} (walk : String → List StyleClass)
      (found : m.get? name = some c) (parents : ∀ p ∈ c.parents, Ancestry m p (walk p)) :
      Ancestry m name (c :: c.parents.flatMap walk)

theorem Ancestry.unique {m : ClassMap} {name : String} {walk walk' : List StyleClass}
    (h : m.Ancestry name walk) (h' : m.Ancestry name walk') : walk = walk' := by
  induction h generalizing walk' with
  | @intro name c walk found parents ih =>
      cases h' with
      | @intro _ c' walk' found' parents' =>
          obtain rfl : c = c' := by simpa [found] using found'
          have same : c.parents.map walk = c.parents.map walk' :=
            List.map_congr_left fun p hp => ih p hp (parents' p hp)
          rw [List.flatMap_def, List.flatMap_def, same]

end ClassMap

/-- The values of a class are the first ones set in some classes. -/
structure StyleClass.Reads (c : StyleClass) (walk : List StyleClass) : Prop where
  style : c.style = Style.firstSet (walk.map StyleClass.style)
  layout : c.layout = ofSome? Layout.firstSet (walk.filterMap StyleClass.layout)
  states : ∀ k, OrderedMap.get? c.states k =
    ofSome? Style.firstSet (walk.filterMap fun a => OrderedMap.get? a.states k)
  combined : ∀ k, OrderedMap.get? c.combined k =
    ofSome? Style.firstSet (walk.filterMap fun a => OrderedMap.get? a.combined k)

namespace StyleClass.Reads

theorem own (c : StyleClass) : c.Reads [c] := by
  refine ⟨?_, ?_, fun k => ?_, fun k => ?_⟩
  · exact (Style.firstSet_singleton c.style).symm
  · cases h : c.layout <;> simp [h, ofSome?, Layout.firstSet_singleton]
  · cases h : OrderedMap.get? c.states k <;> simp [h, ofSome?, Style.firstSet_singleton]
  · cases h : OrderedMap.get? c.combined k <;> simp [h, ofSome?, Style.firstSet_singleton]

theorem inherit {c d : StyleClass} {walk walk' : List StyleClass} (h : c.Reads walk)
    (h' : d.Reads walk') : (c.inherit d).Reads (walk ++ walk') := by
  refine ⟨?_, ?_, fun k => ?_, fun k => ?_⟩
  · rw [List.map_append, Style.firstSet_append, ← h.style, ← h'.style]
    rfl
  · rw [List.filterMap_append, ofSome?_append Layout.firstSet_append, ← h.layout, ← h'.layout]
    exact layoutWithDefaults_eq c.layout d.layout
  · rw [List.filterMap_append, ofSome?_append Style.firstSet_append, ← h.states, ← h'.states]
    exact Variants.get?_withDefaults c.states d.states k
  · rw [List.filterMap_append, ofSome?_append Style.firstSet_append, ← h.combined, ← h'.combined]
    exact Variants.get?_withDefaults c.combined d.combined k

/-- Several parents, each behind the ones before it. -/
theorem foldl {names : List String} {form : String → StyleClass} {walk : String → List StyleClass}
    (each : ∀ p ∈ names, (form p).Reads (walk p)) {c : StyleClass} {start : List StyleClass}
    (h : c.Reads start) :
    ((names.map form).foldl StyleClass.inherit c).Reads (start ++ names.flatMap walk) := by
  induction names generalizing c start with
  | nil => simpa using h
  | cons p names ih =>
      have next := h.inherit (each p (by simp))
      simpa using ih (fun q hq => each q (List.mem_cons_of_mem _ hq)) next

theorem mergeParents (c : StyleClass) {names : List String} {form : String → StyleClass}
    {walk : String → List StyleClass} (each : ∀ p ∈ names, (form p).Reads (walk p)) :
    (c.mergeParents (names.map form)).Reads (c :: names.flatMap walk) := by
  cases names with
  | nil => exact own c
  | cons p names =>
      have all := foldl (fun q hq => each q (List.mem_cons_of_mem _ hq)) (each p (by simp))
      simpa [StyleClass.mergeParents] using (own c).inherit all

end StyleClass.Reads

theorem StyleClass.mergeParents_own (c : StyleClass) (ps : List StyleClass) :
    (c.mergeParents ps).name = c.name ∧ (c.mergeParents ps).parents = c.parents ∧
      (c.mergeParents ps).span = c.span := by
  cases ps <;> exact ⟨rfl, rfl, rfl⟩

namespace ClassMap

theorem assemble_eq (m : ClassMap) (c : StyleClass) (form : String → StyleClass) :
    m.lineage.assemble c ((m.lineage.parents c).map form) =
      c.mergeParents (c.parents.map form) := by
  cases h : c.parents <;> simp [Lineage.assemble, lineage, h, StyleClass.mergeParents]

/-- What a class derives is read off its walk. -/
theorem reads_of_derives {m : ClassMap} {name : String} {d : Nat} {v : StyleClass}
    (derived : m.lineage.Derives name d v) : ∃ walk, m.Ancestry name walk ∧ v.Reads walk := by
  induction derived with
  | @intro name c depth form found parents ih =>
      choose! walk walks reads using ih
      refine ⟨_, .intro walk found walks, ?_⟩
      rw [assemble_eq]
      exact .mergeParents c reads

theorem own_of_derives {m : ClassMap} {name : String} {d : Nat} {c v : StyleClass}
    (derived : m.lineage.Derives name d v) (found : m.get? name = some c) :
    v.name = c.name ∧ v.parents = c.parents ∧ v.span = c.span := by
  cases derived with
  | @intro _ c' depth form found' parents =>
      obtain rfl : c' = c := Option.some.inj (found'.symm.trans found)
      rw [assemble_eq]
      exact c'.mergeParents_own _

theorem resolveAll_eq_ok_iff {m r : ClassMap} :
    m.resolveAll = .ok r ↔ m.lineage.resolveAllFresh = .ok r := by
  rw [resolveAll]
  cases m.lineage.resolveAllFresh <;> simp [Except.mapError]

/-- Every class of a resolved map has its own name, parents and place, and its values are the first
ones that are set on the walk from it. It has a layout, or a variant for a state or a selector, when
some class of the walk has one. -/
theorem resolveAll_eq_firstSet {m r : ClassMap} (resolved : m.resolveAll = .ok r) {name : String}
    {c : StyleClass} (found : m.get? name = some c) :
    ∃ walk v, m.Ancestry name walk ∧ (∀ other, m.Ancestry name other → other = walk) ∧
      r.get? name = some v ∧ (v.name = c.name ∧ v.parents = c.parents ∧ v.span = c.span) ∧
      v.style = Style.firstSet (walk.map StyleClass.style) ∧
      ((v.layout = none ↔ ∀ a ∈ walk, a.layout = none) ∧
        ∀ l, v.layout = some l → l = Layout.firstSet (walk.filterMap StyleClass.layout)) ∧
      (∀ state, (OrderedMap.get? v.states state = none ↔
        ∀ a ∈ walk, OrderedMap.get? a.states state = none) ∧
        ∀ s, OrderedMap.get? v.states state = some s →
          s = Style.firstSet (walk.filterMap fun a => OrderedMap.get? a.states state)) ∧
      (∀ selector,
        (OrderedMap.get? v.combined selector = none ↔
          ∀ a ∈ walk, OrderedMap.get? a.combined selector = none) ∧
        ∀ s, OrderedMap.get? v.combined selector = some s →
          s = Style.firstSet (walk.filterMap fun a => OrderedMap.get? a.combined selector)) := by
  obtain ⟨_, values⟩ := Lineage.resolveAllFresh_ok (resolveAll_eq_ok_iff.mp resolved)
  obtain ⟨d, v, derived, _, value⟩ := values name (Lineage.has_of_get? found)
  obtain ⟨walk, walks, reads⟩ := reads_of_derives derived
  refine ⟨walk, v, walks, fun other h => h.unique walks, value, own_of_derives derived found,
    reads.style, ⟨?_, fun l h => ?_⟩, fun state => ⟨?_, fun s h => ?_⟩, fun selector =>
      ⟨?_, fun s h => ?_⟩⟩
  · rw [reads.layout]
    exact ofSome?_filterMap_eq_none_iff _ _ _
  · exact eq_of_ofSome? (reads.layout ▸ h)
  · rw [reads.states]
    exact ofSome?_filterMap_eq_none_iff _ _ _
  · exact eq_of_ofSome? (reads.states state ▸ h)
  · rw [reads.combined]
    exact ofSome?_filterMap_eq_none_iff _ _ _
  · exact eq_of_ofSome? (reads.combined selector ▸ h)

def layeredLeaf : StyleClass where
  name := "leaf"
  parents := ["left", "right"]
  states := [(.hover, { background := some (.image "hover.png" .cover) })]

/-- A class whose two parents share a parent. The shared one comes before the
second parent on the walk. -/
def layered : ClassMap :=
  [("leaf", layeredLeaf),
    ("left", { name := "left", parents := ["root"], layout := some { zIndex := some 1 } }),
    ("right", { name := "right", parents := ["root"],
                style := { background := some (.image "right.png" .cover) } }),
    ("root", { name := "root", style := { background := some (.image "root.png" .fill) },
               layout := some { zIndex := some 2 } })]

theorem resolveAll_eq_firstSet_layered :
    ∃ r walk v, layered.resolveAll = .ok r ∧ layered.get? "leaf" = some layeredLeaf ∧
      layered.Ancestry "leaf" walk ∧ r.get? "leaf" = some v ∧ v.name = "leaf" ∧
      v.style = Style.firstSet (walk.map StyleClass.style) ∧
      (v.layout = none ↔ ∀ a ∈ walk, a.layout = none) ∧
      (OrderedMap.get? v.states .hover = none ↔
        ∀ a ∈ walk, OrderedMap.get? a.states .hover = none) := by
  obtain ⟨r, resolved⟩ : ∃ r, layered.resolveAll = .ok r := ⟨_, by cbv⟩
  have found : layered.get? "leaf" = some layeredLeaf := by cbv
  obtain ⟨walk, v, walks, _, value, own, style, layout, states, _⟩ :=
    resolveAll_eq_firstSet resolved found
  exact ⟨r, walk, v, resolved, found, walks, value, own.1, style, layout.1, (states .hover).1⟩

end ClassMap

end UiMarkup
