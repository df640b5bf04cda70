import UiMarkup.Proofs.DistinctKeys
import UiMarkup.Proofs.Theme.FontSizes

/-!
Where the values of a resolved theme come from: the theme itself, its parent, the parent of that
one, and so on, of which the nearest that sets a value wins. Colors, fonts and spacing are taken one
by one; a base style is one value, so two styles for one kind of widget are never mixed.
-/

namespace UiMarkup

/-- Role by role, the first color that is set in some palettes. -/
def Palette.firstSet (ps : List Palette) : Palette :=
  ⟨fun role => ps.findSome? fun p => p.color role⟩

theorem Palette.firstSet_singleton (p : Palette) : firstSet [p] = p := by
  simp [firstSet]

theorem Palette.firstSet_cons (p : Palette) (ps : List Palette) :
    firstSet (p :: ps) = p.withDefaults (firstSet ps) := by
  simp only [firstSet, withDefaults, findSome?_cons_eq_or]

/-- The values of a theme are the first ones set in some themes. -/
structure Theme.Reads (v : Theme) (chain : List Theme) : Prop where
  palette : v.palette = Palette.firstSet (chain.map Theme.palette)
  typography : v.typography = Typography.firstSet (chain.map Theme.typography)
  spacing : v.spacing = chain.findSome? Theme.spacing
  baseStyles : ∀ tag, v.baseStyles.get? tag = chain.findSome? fun t => t.baseStyles.get? tag

namespace Theme.Reads

theorem own (t : Theme) : t.Reads [t] := by
  refine ⟨?_, ?_, ?_, fun tag => ?_⟩
  · exact (Palette.firstSet_singleton t.palette).symm
  · exact (Typography.firstSet_singleton t.typography).symm
  · simp
  · simp

/-- Own base styles are written over those of the parent, each as a whole. -/
theorem inherit {t p : Theme} {chain : List Theme} (distinct : t.baseStyles.keys.Nodup)
    (h : p.Reads chain) : (t.inherit p).Reads (t :: chain) := by
  refine ⟨?_, ?_, ?_, fun tag => ?_⟩
  · rw [List.map_cons, Palette.firstSet_cons, ← h.palette]
    rfl
  · rw [List.map_cons, Typography.firstSet_cons, ← h.typography]
    rfl
  · rw [findSome?_cons_eq_or, ← h.spacing]
    rfl
  · rw [findSome?_cons_eq_or, ← h.baseStyles, ← OrderedMap.get?_reverse distinct]
    exact OrderedMap.get?_putAll p.baseStyles t.baseStyles tag

/-- There is a base style for a tag where some theme has one. -/
theorem has_baseStyles_iff {v : Theme} {chain : List Theme} (h : v.Reads chain) (tag : String) :
    v.baseStyles.has tag = true ↔ ∃ t ∈ chain, t.baseStyles.has tag = true := by
  rw [OrderedMap.has, h.baseStyles, List.isSome_findSome?, List.any_eq_true]
  rfl

/-- It is the one of the first theme that has one. -/
theorem get?_baseStyles_eq_some_iff {v : Theme} {chain : List Theme} (h : v.Reads chain)
    (tag : String) (style : Style) : v.baseStyles.get? tag = some style ↔
      ∃ (before : List Theme) (t : Theme) (after : List Theme), chain = before ++ t :: after ∧
      t.baseStyles.get? tag = some style ∧ ∀ b ∈ before, b.baseStyles.has tag = false := by
  rw [h.baseStyles, List.findSome?_eq_some_iff]
  simp only [OrderedMap.has, Option.isSome_eq_false_iff, Option.isNone_iff_eq_none]

end Theme.Reads

namespace ThemeMap

variable {m r : ThemeMap} {name : String} {t : Theme}

theorem Ancestry.unique {chain chain' : List Theme} (h : m.Ancestry name chain)
    (h' : m.Ancestry name chain') : chain = chain' := by
  induction h generalizing chain' with
  | @last name t found alone =>
      cases h' with
      | last found' _ => rw [Option.some.inj (found.symm.trans found')]
      | more found' link _ =>
          obtain rfl := Option.some.inj (found.symm.trans found')
          simp [alone] at link
  | @more name parent t chain found link above ih =>
      cases h' with
      | last found' alone =>
          obtain rfl := Option.some.inj (found.symm.trans found')
          simp [alone] at link
      | more found' link' above' =>
          obtain rfl := Option.some.inj (found.symm.trans found')
          obtain rfl := List.singleton_inj.mp (link.symm.trans link')
          rw [ih above']

theorem own_of_derives {d : Nat} {v : Theme} (derived : m.lineage.Derives name d v)
    (found : m.get? name = some t) : v.name = t.name ∧ v.parent = t.parent ∧ v.span = t.span := by
  cases derived with
  | @intro _ t' depth form found' parents =>
      obtain rfl : t' = t := Option.some.inj (found'.symm.trans found)
      rw [assemble_eq]
      exact t'.mergeParents_own _

/-- Every theme of a resolved map has its own name, parent and place. Each color, each value of its
typography and its spacing is the first one that is set on the chain of its ancestors, itself first;
it has the base styles that they have, each from the first of them that has it. -/
theorem resolveAll_eq_nearest (distinct : ∀ n a, m.get? n = some a → a.baseStyles.keys.Nodup)
    (resolved : m.resolveAll = .ok r) (found : m.get? name = some t) :
    ∃ chain v, m.Ancestry name chain ∧ (∀ other, m.Ancestry name other → other = chain) ∧
      r.get? name = some v ∧ (v.name = t.name ∧ v.parent = t.parent ∧ v.span = t.span) ∧
      (∀ role, v.palette.color role = chain.findSome? fun a => a.palette.color role) ∧
      v.typography = Typography.firstSet (chain.map Theme.typography) ∧
      v.spacing = chain.findSome? Theme.spacing ∧
      ∀ tag, (v.baseStyles.has tag = true ↔ ∃ a ∈ chain, a.baseStyles.has tag = true) ∧
        ∀ style, v.baseStyles.get? tag = some style ↔
          ∃ (before : List Theme) (a : Theme) (after : List Theme), chain = before ++ a :: after ∧
          a.baseStyles.get? tag = some style ∧ ∀ b ∈ before, b.baseStyles.has tag = false := by
  obtain ⟨_, values⟩ := Lineage.resolveAllFresh_ok (resolveAll_eq_ok_iff.mp resolved)
  obtain ⟨d, v, derived, _, value⟩ := values name (Lineage.has_of_get? found)
  obtain ⟨chain, ancestry, reads⟩ :=
    exists_ancestry_of_derives (P := Theme.Reads) (fun _ a _ => .own a)
      (fun n a _ _ known h => h.inherit (distinct n a known)) derived
  refine ⟨chain, v, ancestry, fun other h => h.unique ancestry, value, own_of_derives derived found,
    fun role => ?_, reads.typography, reads.spacing, fun tag =>
      ⟨reads.has_baseStyles_iff tag, reads.get?_baseStyles_eq_some_iff tag⟩⟩
  rw [reads.palette]
  exact List.findSome?_map

section Stacked

variable (near far : Palette) (size unit : Float) (card : Style)

def nightTheme : Theme := { name := "night", parent := some "dim", palette := near }

def dimTheme : Theme :=
  { name := "dim", parent := some "plain", spacing := some unit, baseStyles := [("card", card)] }

def plainTheme : Theme where
  name := "plain"
  palette := far
  typography := { sizeBase := some size }
  baseStyles := [("card", { background := some (.image "plain.png" .fill) }), ("text", {})]

/-- A theme over one that has cards of its own, over one with other cards. -/
def stacked : ThemeMap :=
  [("dim", dimTheme unit card), ("night", nightTheme near), ("plain", plainTheme far size)]

theorem exists_resolveAll_stacked : ∃ r, (stacked near far size unit card).resolveAll = .ok r :=
  ⟨_, by cbv⟩

theorem nodup_stacked (n : String) (a : Theme)
    (known : (stacked near far size unit card).get? n = some a) :
    a.baseStyles.keys.Nodup := by
  have all : ∀ p ∈ stacked near far size unit card, p.2.baseStyles.keys.Nodup := by
    simp only [stacked, List.forall_mem_cons]
    exact ⟨List.nodup_singleton _, List.nodup_nil, by simp [plainTheme, OrderedMap.keys], by simp⟩
  exact all (n, a) (OrderedMap.mem_of_get?_eq_some known)

theorem ancestry_stacked : (stacked near far size unit card).Ancestry "night"
    [nightTheme near, dimTheme unit card, plainTheme far size] :=
  .more (by cbv) rfl (.more (by cbv) rfl (.last (by cbv) rfl))

end Stacked

def dimCard : Style := { background := some (.image "dim.png" .cover) }

open ThemeDocument (navy tan) in
theorem resolveAll_eq_nearest_stacked :
    let m := stacked (.fill navy [.text]) (.fill tan [.text, .surface]) 16 4 dimCard
    (∀ n a, m.get? n = some a → a.baseStyles.keys.Nodup) ∧
    ∃ r v, m.resolveAll = .ok r ∧ m.get? "night" = some (nightTheme (.fill navy [.text])) ∧
      r.get? "night" = some v ∧
      v.name = "night" ∧ v.palette.color .text = some navy ∧ v.palette.color .surface = some tan ∧
      v.typography.sizeBase = some 16 ∧ v.spacing = some 4 ∧
      v.baseStyles.get? "card" = some dimCard := by
  obtain ⟨r, resolved⟩ :=
    exists_resolveAll_stacked (.fill navy [.text]) (.fill tan [.text, .surface]) 16 4 dimCard
  have distinct := nodup_stacked (.fill navy [.text]) (.fill tan [.text, .surface]) 16 4 dimCard
  have found : (stacked (.fill navy [.text]) (.fill tan [.text, .surface]) 16 4 dimCard).get?
      "night" = some (nightTheme (.fill navy [.text])) := rfl
  obtain ⟨chain, v, -, only, value, own, colors, typography, spacing, styles⟩ :=
    resolveAll_eq_nearest distinct resolved found
  obtain rfl := only _ (ancestry_stacked _ _ _ _ _)
  refine ⟨distinct, r, v, resolved, found, value, own.1, colors .text,
    colors .surface, ?_, spacing, ?_⟩
  · rw [typography]
    rfl
  · exact ((styles "card").2 _).mpr ⟨[_], _, [_], rfl, rfl, by decide⟩

end ThemeMap
end UiMarkup
