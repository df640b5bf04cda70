import UiMarkup.Proofs.DistinctKeys
import UiMarkup.Proofs.Document.Ends
import UiMarkup.Proofs.NestedMaps

/-!
What becomes of the attributes of a style class. One without states has to be known. Behind a state,
and in the child element of a state, any name goes. The style of a state is that of the style
attributes among them; the others are left out, and no error says so.
-/

namespace UiMarkup

/-! ### Style attributes -/

namespace Style

open Value (given)

/-- A style depends on its own attributes only. -/
theorem ofAttributes_congr {values values' : OrderedMap String String}
    (h : ∀ name ∈ attributeNames, values.get? name = values'.get? name) :
    ofAttributes values = ofAttributes values' := by
  have hany : attributeNames.any values.has = attributeNames.any values'.has := by
    refine Bool.eq_iff_iff.mpr ?_
    simp only [List.any_eq_true, OrderedMap.has]
    exact exists_congr fun name => and_congr_right fun hname => by rw [h name hname]
  have hgiven {α : Type} {name : String} (hname : name ∈ attributeNames)
      (read : List Char → Except ValueFault α) :
      given values name read = given values' name read := by
    rw [given, given, h name hname]
  have hnames : attributeNames.Forall (· ∈ attributeNames) :=
    List.forall_iff_forall_mem.mpr fun _ h => h
  obtain ⟨h₁, h₂, h₃, h₄, h₅, h₆, h₇, h₈, h₉⟩ := hnames
  rw [ofAttributes, ofAttributes, hany]
  simp only [hgiven h₁, hgiven h₂, hgiven h₃, hgiven h₄, hgiven h₅, hgiven h₆, hgiven h₇,
    hgiven h₈, hgiven h₉]

/-- The style attributes among some pairs, the last one of each name. -/
def valuesOf (pairs : List (String × String)) : OrderedMap String String :=
  OrderedMap.putAll [] (pairs.filter fun p => attributeNames.contains p.1)

theorem get?_filter {names : List String} {name : String} (h : name ∈ names)
    (pairs : OrderedMap String String) :
    OrderedMap.get? (pairs.filter fun p => names.contains p.1) name = pairs.get? name := by
  rw [OrderedMap.get?, List.find?_filter, OrderedMap.get?]
  refine congrArg (fun found => Option.map Prod.snd found)
    (congrArg (List.find? · pairs) (funext fun p => ?_))
  by_cases same : p.1 = name <;> simp [same, h]

theorem ofAttributes_putAll (pairs : List (String × String)) :
    ofAttributes (OrderedMap.putAll [] pairs) = ofAttributes (valuesOf pairs) := by
  refine ofAttributes_congr fun name hname => ?_
  rw [valuesOf, OrderedMap.get?_putAll, OrderedMap.get?_putAll, ← List.filter_reverse,
    get?_filter hname]

end Style

theorem AttributeName.splitSelector?_of_not_mem {name : String} (h : ':' ∉ name.toList) :
    splitSelector? name = none := by
  have hcut : Text.cut? ':' name.toList.reverse = none :=
    Text.cut?_eq_none_iff.mpr (by simpa using h)
  simp [splitSelector?, splitLast?, Text.cutLast?, hcut]

theorem StateSelector.single?_eq_some_iff {selector : StateSelector} {state : WidgetState} :
    selector.single? = some state ↔ selector = .single state := by
  obtain ⟨states, canonical, ne_nil⟩ := selector
  rw [single?, single, StateSelector.mk.injEq]
  dsimp only
  split
  · simp
  · next several => exact iff_of_false nofun fun h => several state h

namespace StyleClass

/-! ### What is given -/

/-- An attribute may have any name behind states, but has to be known without them. -/
def Allowed (name : String) : Prop :=
  name = "name" ∨ name = "extends" ∨ (AttributeName.splitSelector? name).isSome ∨
    ':' ∉ name.toList ∧ isKnown name = true

/-- What an attribute gives for the states in its name. -/
def statePart? (a : Attribute) : Option (StateSelector × List (String × String)) :=
  (AttributeName.splitSelector? a.name).map fun (selector, base) => (selector, [(base, a.value)])

/-- What an attribute gives for all states. -/
def basePart? (a : Attribute) : Option (String × String) :=
  if a.name = "name" ∨ a.name = "extends" ∨ (statePart? a).isSome then none
  else some (a.name, a.value)

/-- What a child element gives for its state. -/
def childPart? (e : Element) : Option (StateSelector × List (String × String)) :=
  (WidgetState.ofText? e.tag).map fun state => (.single state, e.values)

/-- The parents that the last attribute for them names. -/
def parentsOf (attributes : List Attribute) : List String :=
  ((attributes.filter fun a => a.name = "extends").getLast?.map fun a =>
    (Text.words a.value.toList).map String.ofList).getD []

theorem parentsOf_concat (attributes : List Attribute) (a : Attribute) :
    parentsOf (attributes ++ [a]) =
    if a.name = "extends" then (Text.words a.value.toList).map String.ofList
    else parentsOf attributes := by
  by_cases h : a.name = "extends" <;> simp [parentsOf, h]

/-- The parts of some entries that are for a selector. -/
def partsFor (selector : StateSelector) (entries : List (StateSelector × List (String × String))) :
    List (List (String × String)) :=
  entries.filterMap fun q => if q.1 = selector then some q.2 else none

/-- The values that parts make up, if there is one. -/
def gather : List (List (String × String)) → Option (OrderedMap String String)
  | [] => none
  | parts => some (OrderedMap.putAll [] parts.flatten)

theorem gather_concat (parts : List (List (String × String))) (pairs : List (String × String)) :
    gather (parts ++ [pairs]) = some (OrderedMap.putAll ((gather parts).getD []) pairs) := by
  cases parts with
  | nil => simp [gather]
  | cons part parts => simp [gather, OrderedMap.putAll, List.foldl_append]

theorem gather_eq_none_iff {parts : List (List (String × String))} :
    gather parts = none ↔ parts = [] := by
  cases parts <;> simp [gather]

/-! ### Collecting -/

namespace Routed

/-- The values of a selector. -/
def values? (r : Routed) (selector : StateSelector) : Option (OrderedMap String String) :=
  match selector.single? with
  | some state => r.states.get? state
  | none => r.combined.get? selector

/-- The attributes with more values for a selector. -/
def write (r : Routed) (selector : StateSelector) (pairs : List (String × String)) : Routed :=
  match selector.single? with
  | some state => { r with states := r.states.adjust state [] (OrderedMap.putAll · pairs) }
  | none => { r with combined := r.combined.adjust selector [] (OrderedMap.putAll · pairs) }

theorem values?_write (r : Routed) (selector selector' : StateSelector)
    (pairs : List (String × String)) :
    (r.write selector pairs).values? selector' =
      if selector' = selector then some (OrderedMap.putAll ((r.values? selector).getD []) pairs)
      else r.values? selector' := by
  by_cases same : selector' = selector
  · subst same
    rw [if_pos rfl]
    cases hselector : selector'.single? <;>
      simp only [write, values?, hselector, OrderedMap.get?_adjust, if_pos]
  · rw [if_neg same]
    cases hselector : selector.single? with
    | none =>
        cases hother : selector'.single? <;>
          simp only [write, values?, hselector, hother, OrderedMap.get?_adjust, if_neg same]
    | some state =>
        cases hother : selector'.single? with
        | none => simp only [write, values?, hselector, hother]
        | some state' =>
            have apart : state' ≠ state := by
              rintro rfl
              rw [StateSelector.single?_eq_some_iff] at hselector hother
              exact same (hother.trans hselector.symm)
            simp only [write, values?, hselector, hother, OrderedMap.get?_adjust, if_neg apart]

/-- The attributes with one more, which is allowed. -/
def addAllowed (r : Routed) (a : Attribute) : Routed :=
  if a.name = "name" then r
  else if a.name = "extends" then
    { r with parents := (Text.words a.value.toList).map String.ofList }
  else match statePart? a with
    | some (selector, pairs) => r.write selector pairs
    | none => { r with base := r.base.put a.name a.value }

/-- The attributes with those of a child element. -/
def addState (r : Routed) (e : Element) : Routed :=
  match childPart? e with
  | some (selector, pairs) => r.write selector pairs
  | none => r

theorem addAttribute_eq_ok_iff (e : Element) (r : Routed) (a : Attribute) (r' : Routed) :
    addAttribute e r a = .ok r' ↔ Allowed a.name ∧ r.addAllowed a = r' := by
  rw [addAttribute, addAllowed, Allowed, statePart?]
  by_cases hname : a.name = "name"
  · simp [hname]
  by_cases hextends : a.name = "extends"
  · simp [hextends]
  simp only [hname, hextends, if_false, false_or]
  by_cases hcolon : ':' ∈ a.name.toList
  · rw [if_pos (List.contains_iff_mem.mpr hcolon), addStateAttribute]
    cases hsplit : AttributeName.splitSelector? a.name with
    | none => simp [invalid, hcolon]
    | some q =>
        obtain ⟨selector, base⟩ := q
        dsimp only [Option.map_some]
        rw [write]
        cases selector.single? <;> simp <;> rfl
  · rw [if_neg (mt List.contains_iff_mem.mp hcolon), AttributeName.splitSelector?_of_not_mem hcolon]
    cases hknown : isKnown a.name <;> simp [invalid, hcolon]

theorem addChild_eq_ok_iff (name : String) (r : Routed) (e : Element) (r' : Routed) :
    addChild name r e = .ok r' ↔ (WidgetState.ofText? e.tag).isSome ∧ r.addState e = r' := by
  rw [addChild, addState, childPart?]
  cases WidgetState.ofText? e.tag with
  | none => simp [invalid]
  | some state =>
      simp
      rfl

@[simp] theorem base_write (r : Routed) (selector : StateSelector)
    (pairs : List (String × String)) : (r.write selector pairs).base = r.base := by
  rw [write]
  split <;> rfl

@[simp] theorem parents_write (r : Routed) (selector : StateSelector)
    (pairs : List (String × String)) : (r.write selector pairs).parents = r.parents := by
  rw [write]
  split <;> rfl

/-- No selector comes twice, and none of a single state among the others. -/
structure WellFormed (r : Routed) : Prop where
  states : r.states.keys.Nodup
  combined : r.combined.keys.Nodup
  several : ∀ q ∈ r.combined, q.1.single? = none

theorem WellFormed.write {r : Routed} (h : r.WellFormed) (selector : StateSelector)
    (pairs : List (String × String)) : (r.write selector pairs).WellFormed := by
  rw [Routed.write]
  cases hselector : selector.single? with
  | some state => exact ⟨OrderedMap.nodup_keys_put h.states _ _, h.combined, h.several⟩
  | none =>
      refine ⟨h.states, OrderedMap.nodup_keys_put h.combined _ _, fun q hq => ?_⟩
      obtain rfl | hq := OrderedMap.mem_put hq
      · exact hselector
      · exact h.several q hq

/-- All that some attributes and child elements give, and nothing else. -/
structure Collects (r : Routed) (attributes : List Attribute) (children : List Element) : Prop where
  base : r.base = OrderedMap.putAll [] (attributes.filterMap basePart?)
  parents : r.parents = parentsOf attributes
  values : ∀ selector, r.values? selector =
    gather (partsFor selector (attributes.filterMap statePart? ++ children.filterMap childPart?))
  wellFormed : r.WellFormed

theorem values?_write_gather {r : Routed} {entries : List (StateSelector × List (String × String))}
    (h : ∀ selector, r.values? selector = gather (partsFor selector entries))
    (q : StateSelector × List (String × String)) (selector : StateSelector) :
    (r.write q.1 q.2).values? selector = gather (partsFor selector (entries ++ [q])) := by
  rw [values?_write, partsFor, List.filterMap_append, ← partsFor, List.filterMap_cons]
  by_cases same : selector = q.1
  · subst same
    simp [gather_concat, h]
  · simp [same, Ne.symm same, h]

theorem collects_empty : ({} : Routed).Collects [] [] where
  base := rfl
  parents := rfl
  values selector := by
    rw [values?]
    split <;> rfl
  wellFormed := ⟨List.nodup_nil, List.nodup_nil, nofun⟩

theorem statePart?_of_not_mem {a : Attribute} (h : ':' ∉ a.name.toList) : statePart? a = none := by
  rw [statePart?, AttributeName.splitSelector?_of_not_mem h]
  rfl

theorem Collects.addAllowed {r : Routed} {attributes : List Attribute}
    (h : r.Collects attributes []) (a : Attribute) :
    (r.addAllowed a).Collects (attributes ++ [a]) [] := by
  obtain ⟨hbase, hparents, hvalues, hwell⟩ := h
  rw [List.filterMap_nil, List.append_nil] at hvalues
  rw [Routed.addAllowed]
  split
  · next hname =>
    have hpart : statePart? a = none := statePart?_of_not_mem (hname ▸ by decide)
    exact ⟨by simp [hbase, basePart?, hname], by simp [hparents, parentsOf_concat, hname],
      by simp [hvalues, hpart], hwell⟩
  · next hname =>
    split
    · next hextends =>
      have hpart : statePart? a = none := statePart?_of_not_mem (hextends ▸ by decide)
      exact ⟨by simp [hbase, basePart?, hextends], by simp [parentsOf_concat, hextends],
        fun selector => (hvalues selector).trans (by simp [hpart]), hwell.states,
          hwell.combined, hwell.several⟩
    · next hextends =>
      cases hpart : statePart? a with
      | none =>
          refine ⟨?_, by simp [hparents, parentsOf_concat, hextends],
            fun selector => (hvalues selector).trans (by simp [hpart]), hwell.states,
              hwell.combined, hwell.several⟩
          simp [hbase, basePart?, hname, hextends, hpart, OrderedMap.putAll]
      | some q =>
          refine ⟨by simp [hbase, basePart?, hpart], by simp [hparents, parentsOf_concat, hextends],
            fun selector => ?_, hwell.write _ _⟩
          rw [values?_write_gather hvalues q selector]
          simp [hpart]

theorem collects_foldl_addAllowed (attributes : List Attribute) :
    (attributes.foldl Routed.addAllowed {}).Collects attributes [] := by
  induction attributes using List.reverseRecOn with
  | nil => exact collects_empty
  | append_singleton attributes a ih =>
      rw [List.foldl_concat]
      exact ih.addAllowed a

theorem collects_foldl_addState {r : Routed} {attributes : List Attribute}
    (h : r.Collects attributes []) (children : List Element) :
    (children.foldl addState r).Collects attributes children := by
  induction children using List.reverseRecOn with
  | nil => exact h
  | append_singleton children e ih =>
      rw [List.foldl_concat, addState]
      cases hpart : childPart? e with
      | none => exact ⟨ih.base, ih.parents, by simp [ih.values, hpart], ih.wellFormed⟩
      | some q =>
          refine ⟨by simp [ih.base], by simp [ih.parents],
            fun selector => ?_, ih.wellFormed.write _ _⟩
          rw [values?_write_gather ih.values q selector]
          simp [hpart]

/-- The values of the selectors are those of the two maps. -/
theorem WellFormed.forall_values {r : Routed} (h : r.WellFormed)
    (good : OrderedMap String String → Prop) :
    ((∀ q ∈ r.states, good q.2) ∧ ∀ q ∈ r.combined, good q.2) ↔
      ∀ selector values, r.values? selector = some values → good values := by
  constructor
  · rintro ⟨hstates, hcombined⟩ selector values found
    rw [values?] at found
    split at found
    · exact hstates _ (OrderedMap.mem_of_get?_eq_some found)
    · exact hcombined _ (OrderedMap.mem_of_get?_eq_some found)
  · refine fun hall => ⟨fun q hq => hall (.single q.1) q.2 ?_, fun q hq => hall q.1 q.2 ?_⟩
    · exact OrderedMap.get?_of_mem h.states hq
    · rw [values?, h.several q hq]
      exact OrderedMap.get?_of_mem h.combined hq

end Routed

/-! ### Reading -/

theorem exists_readVariants_iff {κ : Type} {label : κ → String} {e : Element}
    {variants : List (κ × OrderedMap String String)} :
    (∃ styles, readVariants label e variants = .ok styles) ↔
      ∀ q ∈ variants, ∃ o, Style.ofAttributes q.2 = .ok o := by
  induction variants with
  | nil => exact iff_of_true ⟨[], rfl⟩ nofun
  | cons q variants ih =>
      obtain ⟨k, values⟩ := q
      rw [List.forall_mem_cons, ← ih, readVariants]
      cases Style.ofAttributes values with
      | error fault => simp [invalid]
      | ok o =>
          simp only [bind_eq_ok_iff, pure_eq_ok_iff]
          grind

theorem get?_readVariants {κ : Type} [DecidableEq κ] {label : κ → String} {e : Element}
    {variants : OrderedMap κ (OrderedMap String String)} {styles : Variants κ}
    (h : readVariants label e variants = .ok styles) (k : κ) :
    (variants.get? k = none ∧ styles.get? k = none) ∨ ∃ values o, variants.get? k = some values ∧
      Style.ofAttributes values = .ok o ∧ styles.get? k = some (o.getD .empty) := by
  induction variants generalizing styles with
  | nil =>
      obtain rfl := Except.ok.inj h
      exact .inl ⟨rfl, rfl⟩
  | cons q variants ih =>
      obtain ⟨k', values⟩ := q
      rw [readVariants] at h
      split at h
      · cases h
      · next o hstyle =>
        obtain ⟨styles', hstyles', h⟩ := bind_eq_ok_iff.mp h
        obtain rfl := Except.ok.inj h
        by_cases same : k' = k
        · exact .inr ⟨values, o, by simp [OrderedMap.get?, same], hstyle,
            by simp [OrderedMap.get?, same]⟩
        · simpa [OrderedMap.get?, same] using ih hstyles'

/-- The style of the variant for a selector. -/
def variant? (c : StyleClass) (selector : StateSelector) : Option Style :=
  match selector.single? with
  | some state => c.states.get? state
  | none => c.combined.get? selector

/-- The name in the element of a class. -/
def nameOf (e : Element) : String := String.ofList (Text.trim ((e.get? "name").getD "").toList)

/-- What an element gives for a selector, attribute by attribute and then child by child. -/
def givenFor (e : Element) (selector : StateSelector) : List (List (String × String)) :=
  partsFor selector (e.attributes.filterMap statePart? ++ e.children.filterMap childPart?)

/-- The style that the values for a selector make up. Attributes that belong to no
style have no part in it. -/
def styleFor (e : Element) (selector : StateSelector) : Except ValueFault (Option Style) :=
  Style.ofAttributes (Style.valuesOf (givenFor e selector).flatten)

/-- What the element of a class has to be. -/
structure Accepted (e : Element) : Prop where
  named : nameOf e ≠ ""
  attributes : ∀ a ∈ e.attributes, Allowed a.name
  children : ∀ c ∈ e.children, (WidgetState.ofText? c.tag).isSome
  base : ∃ look, readBase (OrderedMap.putAll [] (e.attributes.filterMap basePart?)) = .ok look
  states : ∀ selector, ∃ o, styleFor e selector = .ok o

/-- The class has what its element gives. -/
structure MadeOf (e : Element) (c : StyleClass) : Prop where
  name : c.name = nameOf e
  span : c.span = e.span
  parents : c.parents = parentsOf e.attributes
  base : readBase (OrderedMap.putAll [] (e.attributes.filterMap basePart?)) =
      .ok (c.style, c.layout)
  variants : ∀ selector, ∃ o, styleFor e selector = .ok o ∧
    c.variant? selector = if (givenFor e selector).isEmpty then none else some (o.getD .empty)

/-- The sorted attributes of an element, where all are allowed. -/
def sort (e : Element) : Routed :=
  e.children.foldl Routed.addState (e.attributes.foldl Routed.addAllowed {})

theorem collects_sort (e : Element) : (sort e).Collects e.attributes e.children :=
  Routed.collects_foldl_addState (Routed.collects_foldl_addAllowed e.attributes) e.children

theorem ofElement_eq_ok_iff {e : Element} {c : StyleClass} : ofElement e = .ok c ↔
    nameOf e ≠ "" ∧ (∀ a ∈ e.attributes, Allowed a.name) ∧
      (∀ c ∈ e.children, (WidgetState.ofText? c.tag).isSome) ∧
      readBase (sort e).base = .ok (c.style, c.layout) ∧
      readVariants WidgetState.name e (sort e).states = .ok c.states ∧
      readVariants StateSelector.text e (sort e).combined = .ok c.combined ∧
      c.name = nameOf e ∧ c.parents = (sort e).parents ∧ c.span = e.span := by
  unfold ofElement
  dsimp only
  rw [← nameOf]
  by_cases hname : nameOf e = ""
  · simp [hname, invalid]
  rw [if_neg (by simpa using hname)]
  simp only [bind_eq_ok_iff, foldlM_eq_ok_iff (Routed.addAttribute_eq_ok_iff e),
    foldlM_eq_ok_iff (Routed.addChild_eq_ok_iff _)]
  constructor
  · rintro ⟨r, ⟨hattributes, rfl⟩, r', ⟨hchildren, rfl⟩, h⟩
    split at h
    · cases h
    · next style layout hbase =>
      obtain ⟨states, hstates, h⟩ := bind_eq_ok_iff.mp h
      obtain ⟨combined, hcombined, h⟩ := bind_eq_ok_iff.mp h
      obtain rfl := Except.ok.inj h
      exact ⟨hname, hattributes, hchildren, hbase, hstates, hcombined, rfl, rfl, rfl⟩
  · obtain ⟨name, style, layout, parents, states, combined, span⟩ := c
    rintro ⟨-, hattributes, hchildren, hbase, hstates, hcombined, rfl, rfl, rfl⟩
    refine ⟨_, ⟨hattributes, rfl⟩, _, ⟨hchildren, rfl⟩, ?_⟩
    rw [sort] at hbase hstates hcombined
    rw [hbase]
    dsimp only at hstates hcombined ⊢
    rw [hstates, hcombined]
    rfl

theorem values?_sort (e : Element) (selector : StateSelector) :
    (sort e).values? selector = gather (givenFor e selector) := (collects_sort e).values selector

theorem ofAttributes_of_gather {e : Element} {selector : StateSelector}
    {values : OrderedMap String String} (h : gather (givenFor e selector) = some values) :
    Style.ofAttributes values = styleFor e selector := by
  rw [styleFor, ← Style.ofAttributes_putAll]
  cases hparts : givenFor e selector with
  | nil => cases hparts ▸ h
  | cons part parts =>
      rw [hparts] at h
      exact congrArg Style.ofAttributes (Option.some.inj h).symm

/-- The variants are read when the style of each selector is. -/
theorem exists_variants_iff {e : Element} :
    ((∃ states, readVariants WidgetState.name e (sort e).states = .ok states) ∧
      ∃ combined, readVariants StateSelector.text e (sort e).combined = .ok combined) ↔
      ∀ selector, ∃ o, styleFor e selector = .ok o := by
  rw [exists_readVariants_iff, exists_readVariants_iff]
  refine ((collects_sort e).wellFormed.forall_values fun values => ∃ o,
    Style.ofAttributes values = .ok o).trans ?_
  refine forall_congr' fun selector => ?_
  simp only [values?_sort]
  constructor
  · intro h
    cases hparts : givenFor e selector with
    | nil =>
        refine ⟨none, ?_⟩
        rw [styleFor, hparts]
        rfl
    | cons part parts =>
        have hgather : gather (givenFor e selector) =
            some (OrderedMap.putAll [] (part :: parts).flatten) := by
          rw [hparts, gather]
          exact nofun
        exact ofAttributes_of_gather hgather ▸ h _ hgather
  · exact fun h values hvalues => ofAttributes_of_gather hvalues ▸ h

theorem accepted_iff {e : Element} : Accepted e ↔ ∃ c, ofElement e = .ok c := by
  simp only [ofElement_eq_ok_iff, (collects_sort e).base]
  constructor
  · rintro ⟨hnamed, hattributes, hchildren, ⟨⟨style, layout⟩, hbase⟩, hstates⟩
    obtain ⟨⟨states, hstates⟩, combined, hcombined⟩ := exists_variants_iff.mpr hstates
    exact ⟨⟨_, style, layout, _, states, combined, _⟩, hnamed, hattributes, hchildren, hbase,
      hstates, hcombined, rfl, rfl, rfl⟩
  · rintro ⟨c, hnamed, hattributes, hchildren, hbase, hstates, hcombined, -⟩
    exact ⟨hnamed, hattributes, hchildren, ⟨_, hbase⟩,
      exists_variants_iff.mp ⟨⟨_, hstates⟩, _, hcombined⟩⟩

/-- The variant for a selector is that of the values that were sorted to it. -/
theorem variant?_of_readVariants {e : Element} {c : StyleClass} {r : Routed}
    (hstates : readVariants WidgetState.name e r.states = .ok c.states)
    (hcombined : readVariants StateSelector.text e r.combined = .ok c.combined)
    (selector : StateSelector) :
    (r.values? selector = none ∧ c.variant? selector = none) ∨ ∃ values o,
      r.values? selector = some values ∧ Style.ofAttributes values = .ok o ∧
        c.variant? selector = some (o.getD .empty) := by
  rw [Routed.values?, variant?]
  cases selector.single? with
  | some state => exact get?_readVariants hstates state
  | none => exact get?_readVariants hcombined selector

theorem madeOf_of_ofElement {e : Element} {c : StyleClass} (h : ofElement e = .ok c) :
    MadeOf e c := by
  obtain ⟨-, -, -, hbase, hstates, hcombined, hname, hparents, hspan⟩ := ofElement_eq_ok_iff.mp h
  have hcollects := collects_sort e
  refine ⟨hname, hspan, hparents.trans hcollects.parents, hcollects.base ▸ hbase,
    fun selector => ?_⟩
  obtain ⟨o, ho⟩ := (accepted_iff.mpr ⟨c, h⟩).states selector
  refine ⟨o, ho, ?_⟩
  have hvariant := variant?_of_readVariants hstates hcombined selector
  rw [values?_sort] at hvariant
  obtain ⟨hnone, hvariant⟩ | ⟨values, o', hvalues, ho', hvariant⟩ := hvariant
  · have hempty : givenFor e selector = [] := gather_eq_none_iff.mp hnone
    rw [hvariant, hempty]
    rfl
  · have hgiven : (givenFor e selector).isEmpty = false := by
      rw [List.isEmpty_eq_false_iff]
      exact fun hempty => by cases (gather_eq_none_iff.mpr hempty).symm.trans hvalues
    obtain rfl : o' = o :=
      Except.ok.inj (ho'.symm.trans ((ofAttributes_of_gather hvalues).trans ho))
    rw [hvariant, hgiven]
    rfl

/-- The element of a class is accepted, and the class has what it gives, or it is refused with an
error. Nothing is asked of the names behind states and in child elements. -/
theorem accepted_or_error (e : Element) :
    (Accepted e ∧ ∃ c, ofElement e = .ok c ∧ MadeOf e c) ∨
      ¬ Accepted e ∧ ∃ error, ofElement e = .error (.parse error) := by
  cases h : ofElement e with
  | ok c => exact .inl ⟨accepted_iff.mpr ⟨c, h⟩, c, rfl, madeOf_of_ofElement h⟩
  | error fault =>
      have hends := ofElement_ends e
      rw [h] at hends
      obtain ⟨error, rfl⟩ := (Ends.error_iff.mp hends).exists_eq
      refine .inr ⟨fun haccepted => ?_, error, rfl⟩
      obtain ⟨c, hc⟩ := accepted_iff.mp haccepted
      cases h.symm.trans hc

/-- A name that is refused by itself is left out behind a state. -/
theorem ofElement_bogus :
    ofElement ⟨"class", [⟨"name", "c", .origin⟩, ⟨"bogus", "1", .origin⟩], [], .origin⟩ =
      .error (.parse ⟨.unknownAttribute .styleClass "bogus", .origin⟩) ∧
    ofElement ⟨"class", [⟨"name", "c", .origin⟩, ⟨"hover:bogus", "1", .origin⟩], [], .origin⟩ =
      .ok { name := "c", states := [(.hover, .empty)] } :=
  ⟨rfl, rfl⟩

end StyleClass

end UiMarkup
