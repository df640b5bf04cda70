import UiMarkup.Proofs.DistinctKeys
import UiMarkup.Proofs.Lineage.Idempotence
import UiMarkup.Proofs.Theme.ClassPrecedence
import UiMarkup.Proofs.Theme.Validity

/-!
Resolving resolved style classes and resolved themes gives them back. They keep their parents, so
all is merged once more along the same graph: every field already has what the parents would add,
and so has every entry of a map.
-/

namespace UiMarkup

theorem Style.withDefaults_again (s t : Style) :
    (s.withDefaults t).withDefaults t = s.withDefaults t := by
  simp [Style.withDefaults, Option.or_assoc]

theorem Layout.withDefaults_again (l m : Layout) :
    (l.withDefaults m).withDefaults m = l.withDefaults m := by
  simp [Layout.withDefaults, Option.or_assoc]

theorem layoutWithDefaults_again (l m : Option Layout) :
    layoutWithDefaults (layoutWithDefaults l m) m = layoutWithDefaults l m := by
  cases l with
  | none => cases m <;> simp [layoutWithDefaults, Layout.withDefaults]
  | some l =>
      cases m with
      | none => rfl
      | some m => exact congrArg some (l.withDefaults_again m)

theorem Palette.withDefaults_again (p q : Palette) :
    (p.withDefaults q).withDefaults q = p.withDefaults q := by
  simp [Palette.withDefaults, Option.or_assoc]

theorem Typography.withDefaults_again (t u : Typography) :
    (t.withDefaults u).withDefaults u = t.withDefaults u := by
  simp [Typography.withDefaults, Option.or_assoc]

namespace Variants

variable {κ : Type} [DecidableEq κ]

theorem keys_withDefaults (m n : Variants κ) :
    OrderedMap.keys (withDefaults m n) =
      OrderedMap.keys m ++ (OrderedMap.keys n).filter fun k => !OrderedMap.has m k := by
  have own : OrderedMap.keys (m.map (entryWithDefaults n)) = OrderedMap.keys m := by
    rw [OrderedMap.keys, List.map_map]
    rfl
  rw [← own, withDefaults, OrderedMap.keys, OrderedMap.keys, OrderedMap.keys,
    List.map_append, List.filter_map]
  rfl

theorem nodup_keys_withDefaults {m n : Variants κ} (hm : (OrderedMap.keys m).Nodup)
    (hn : (OrderedMap.keys n).Nodup) : (OrderedMap.keys (withDefaults m n)).Nodup := by
  rw [keys_withDefaults]
  refine hm.append (hn.filter _) fun k own inherited => ?_
  have unknown : OrderedMap.has m k = false := by simpa using (List.mem_filter.mp inherited).2
  rw [(OrderedMap.has_iff_mem_keys m k).mpr own] at unknown
  cases unknown

theorem entryWithDefaults_again (n : Variants κ) (p : κ × Style) :
    entryWithDefaults n (entryWithDefaults n p) = entryWithDefaults n p := by
  cases found : OrderedMap.get? n p.1 with
  | none => simp [entryWithDefaults, found]
  | some s => simp [entryWithDefaults, found, Style.withDefaults_again]

theorem entryWithDefaults_of_mem {n : Variants κ} (hn : (OrderedMap.keys n).Nodup) {p : κ × Style}
    (mem : p ∈ n) : entryWithDefaults n p = p := by
  have found : OrderedMap.get? n p.1 = some p.2 := OrderedMap.get?_of_mem hn mem
  simp [entryWithDefaults, found, Style.withDefaults]

/-- Own entries are merged with the same ones again, the others are what they
would be merged with. -/
theorem withDefaults_again (m : Variants κ) {n : Variants κ} (hn : (OrderedMap.keys n).Nodup) :
    withDefaults (withDefaults m n) n = withDefaults m n := by
  have entries : (withDefaults m n).map (entryWithDefaults n) = withDefaults m n := by
    rw [withDefaults, List.map_append, List.map_map]
    congr 1
    · exact List.map_congr_left fun p _ => entryWithDefaults_again n p
    · refine (List.map_congr_left fun p mem => ?_).trans (List.map_id _)
      exact entryWithDefaults_of_mem hn (List.mem_filter.mp mem).1
  have nothing : (n.filter fun p => !OrderedMap.has (withDefaults m n) p.1) = [] := by
    refine List.filter_eq_nil_iff.mpr fun p mem => ?_
    have inherited : p.1 ∈ OrderedMap.keys n := List.mem_map_of_mem mem
    have known : OrderedMap.has (withDefaults m n) p.1 = true := by
      rw [OrderedMap.has_iff_mem_keys, keys_withDefaults, List.mem_append, List.mem_filter]
      cases own : OrderedMap.has m p.1 with
      | true => exact .inl ((OrderedMap.has_iff_mem_keys m p.1).mp own)
      | false => exact .inr ⟨inherited, by rfl⟩
    simp [known]
  rw [withDefaults, entries, nothing, List.append_nil]

end Variants

namespace StyleClass

/-- No state and no selector has two variants. -/
structure DistinctVariants (c : StyleClass) : Prop where
  states : (OrderedMap.keys c.states).Nodup
  combined : (OrderedMap.keys c.combined).Nodup

theorem DistinctVariants.inherit {c p : StyleClass} (hc : c.DistinctVariants)
    (hp : p.DistinctVariants) : (c.inherit p).DistinctVariants :=
  ⟨Variants.nodup_keys_withDefaults hc.states hp.states,
    Variants.nodup_keys_withDefaults hc.combined hp.combined⟩

theorem DistinctVariants.foldl {ps : List StyleClass} (hps : ∀ p ∈ ps, p.DistinctVariants)
    {c : StyleClass} (hc : c.DistinctVariants) :
    (ps.foldl StyleClass.inherit c).DistinctVariants := by
  induction ps generalizing c with
  | nil => exact hc
  | cons p ps ih =>
      obtain ⟨hp, hps⟩ := List.forall_mem_cons.mp hps
      exact ih hps (hc.inherit hp)

theorem inherit_again (c : StyleClass) {p : StyleClass} (hp : p.DistinctVariants) :
    (c.inherit p).inherit p = c.inherit p := by
  simp only [inherit, Style.withDefaults_again, layoutWithDefaults_again,
    Variants.withDefaults_again _ hp.states, Variants.withDefaults_again _ hp.combined]

end StyleClass

theorem ClassMap.absorbing {m : ClassMap}
    (distinct : ∀ name c, m.get? name = some c → c.DistinctVariants) :
    m.lineage.Absorbing StyleClass.DistinctVariants where
  entities := distinct
  parents c ps := (c.mergeParents_own ps).2.1
  kept c ps hc hps := by
    cases ps with
    | nil => exact hc
    | cons p ps =>
        obtain ⟨hp, hps⟩ := List.forall_mem_cons.mp hps
        exact hc.inherit (.foldl hps hp)
  again c ps _ hps := by
    cases ps with
    | nil => rfl
    | cons p ps =>
        obtain ⟨hp, hps⟩ := List.forall_mem_cons.mp hps
        exact c.inherit_again (.foldl hps hp)

theorem Theme.inherit_again (t : Theme) {p : Theme} (hp : p.baseStyles.keys.Nodup) :
    (t.inherit p).inherit p = t.inherit p := by
  simp only [inherit, Palette.withDefaults_again, Typography.withDefaults_again,
    OrderedMap.putAll_putAll hp]
  simp [Option.or_assoc]

theorem ThemeMap.absorbing {m : ThemeMap}
    (distinct : ∀ name t, m.get? name = some t → t.baseStyles.keys.Nodup) :
    m.lineage.Absorbing fun t => t.baseStyles.keys.Nodup where
  entities := distinct
  parents t ps := by cases ps <;> rfl
  kept t ps ht hps := by
    cases ps with
    | nil => exact ht
    | cons p ps => exact OrderedMap.nodup_keys_putAll (hps p (by simp)) t.baseStyles
  again t ps _ hps := by
    cases ps with
    | nil => rfl
    | cons p ps => exact t.inherit_again (hps p (by simp))

/-- Resolved style classes, and resolved themes, are what they resolve to. -/
theorem resolveAll_resolveAll :
    (∀ m r : ClassMap, (∀ name c, m.get? name = some c → c.DistinctVariants) →
      m.resolveAll = .ok r → r.resolveAll = .ok r) ∧
    ∀ m r : ThemeMap, (∀ name t, m.get? name = some t → t.baseStyles.keys.Nodup) →
      m.resolveAll = .ok r → r.resolveAll = .ok r := by
  refine ⟨fun m r distinct resolved => ?_, fun m r distinct resolved => ?_⟩
  · exact ClassMap.resolveAll_eq_ok_iff.mpr
      (Lineage.resolveAllFresh_withEntities (ClassMap.absorbing distinct)
        (ClassMap.resolveAll_eq_ok_iff.mp resolved))
  · exact ThemeMap.resolveAll_eq_ok_iff.mpr
      (Lineage.resolveAllFresh_withEntities (ThemeMap.absorbing distinct)
        (ThemeMap.resolveAll_eq_ok_iff.mp resolved))

/-- A theme whose parent has a base style for the same tag and for one more. -/
def ThemeMap.framed : ThemeMap :=
  [("framed",
      { name := "framed", parent := some "plain", spacing := some 4,
        baseStyles := [("card", { background := some (.image "frame.png" .cover) }),
          ("button", {})] }),
    ("plain",
      { name := "plain", palette := Palette.empty.set .text .black,
        typography := { sizeBase := some 16 },
        baseStyles := [("button", { background := some (.image "button.png" .fill) }),
          ("text", {})] })]

theorem resolveAll_resolveAll_layered :
    (∃ r, ClassMap.layered.resolveAll = .ok r ∧ r.resolveAll = .ok r) ∧
      ∃ r, ThemeMap.framed.resolveAll = .ok r ∧ r.resolveAll = .ok r := by
  have classes : ∀ p ∈ ClassMap.layered, p.2.DistinctVariants := by
    simp only [ClassMap.layered, ClassMap.layeredLeaf, List.forall_mem_cons]
    exact ⟨⟨by decide, by decide⟩, ⟨by decide, by decide⟩, ⟨by decide, by decide⟩,
      ⟨by decide, by decide⟩, by simp⟩
  have themes : ∀ p ∈ ThemeMap.framed, p.2.baseStyles.keys.Nodup := by
    simp only [ThemeMap.framed, List.forall_mem_cons]
    exact ⟨by decide, by decide, by simp⟩
  obtain ⟨r, resolved⟩ : ∃ r, ClassMap.layered.resolveAll = .ok r := ⟨_, by cbv⟩
  obtain ⟨r', resolved'⟩ : ∃ r, ThemeMap.framed.resolveAll = .ok r := ⟨_, by cbv⟩
  exact ⟨⟨r, resolved, resolveAll_resolveAll.1 _ r
      (fun _ c found => classes (_, c) (OrderedMap.mem_of_get?_eq_some found)) resolved⟩,
    ⟨r', resolved', resolveAll_resolveAll.2 _ r'
      (fun _ t found => themes (_, t) (OrderedMap.mem_of_get?_eq_some found)) resolved'⟩⟩

end UiMarkup
