import Mathlib
import UiMarkup.Proofs.Outcome
import UiMarkup.Proofs.Theme.ClassPrecedence

/-!
Which checks of style classes survive inheritance. A check of one field does, and so does the check
that a position has an offset; the order of a least and a largest size does not, since the two may
come from different classes.
-/

namespace UiMarkup

/-- A field that is merged comes from one side as it is, so what is found of both is found of it. -/
theorem check_or {α β : Type} {check : Option α → β} {x y : Option α} {result : β}
    (hx : check x = result) (hy : check y = result) : check (x.or y) = result := by
  cases x with
  | none => exact hy
  | some _ => exact hx

/-! ### Styles -/

namespace Style

theorem check_eq_ok_iff (s : Style) : s.check = .ok () ↔
    checkIf Background.check s.background = .ok () ∧ checkIf Color.check s.color = .ok () ∧
      checkIf Border.check s.border = .ok () ∧ checkIf checkOpacity s.opacity = .ok () := by
  simp only [check, andThen_eq_ok_iff]

theorem check_withDefaults {s t : Style} (hs : s.check = .ok ()) (ht : t.check = .ok ()) :
    (s.withDefaults t).check = .ok () := by
  obtain ⟨hb, hc, hd, ho⟩ := (check_eq_ok_iff s).mp hs
  obtain ⟨hb', hc', hd', ho'⟩ := (check_eq_ok_iff t).mp ht
  exact (check_eq_ok_iff _).mpr
    ⟨check_or hb hb', check_or hc hc', check_or hd hd', check_or ho ho'⟩

end Style

/-! ### Layouts -/

namespace Layout

/-- The least and the largest size along an axis. -/
def bounds (l : Layout) : Axis → Option Float × Option Float
  | .width => (l.minWidth, l.maxWidth)
  | .height => (l.minHeight, l.maxHeight)

/-- The largest size along an axis is below the least one. -/
def Crossed (l : Layout) (axis : Axis) (least most : Float) : Prop :=
  l.bounds axis = (some least, some most) ∧ most < least

/-- Everything that is checked of a layout but the order of its bounds. -/
structure Sound (l : Layout) : Prop where
  spacing : checkSpacing l.spacing = .ok ()
  padding : checkPadding l.padding = .ok ()
  width : checkLength l.width = .ok ()
  height : checkLength l.height = .ok ()
  placed : l.position.isSome → l.top.isSome ∨ l.right.isSome ∨ l.bottom.isSome ∨ l.left.isSome

theorem checkRange_eq_ok_iff (axis : Axis) (x y : Option Float) :
    checkRange axis x y = .ok () ↔ ∀ least most, (x, y) = (some least, some most) →
      ¬ most < least := by
  cases x <;> cases y <;> simp [checkRange]

theorem checkRange_eq_error {axis : Axis} {x y : Option Float} {fault : ValueFault}
    (h : checkRange axis x y = .error fault) :
    ∃ least most, (x, y) = (some least, some most) ∧ most < least ∧
      fault = .minAboveMax axis least most := by
  cases x with
  | none => simp [checkRange] at h
  | some least =>
      cases y with
      | none => simp [checkRange] at h
      | some most =>
          rw [checkRange] at h
          split at h
          · cases h
            exact ⟨least, most, rfl, by assumption, rfl⟩
          · cases h

theorem placed_iff (l : Layout) :
    (l.position.isSome && l.top.isNone && l.right.isNone && l.bottom.isNone && l.left.isNone) =
      false ↔
      (l.position.isSome → l.top.isSome ∨ l.right.isSome ∨ l.bottom.isSome ∨ l.left.isSome) := by
  cases l.position <;> cases l.top <;> cases l.right <;> cases l.bottom <;> cases l.left <;> simp

theorem check_eq_ok_iff (l : Layout) : l.check = .ok () ↔
    checkRange .width l.minWidth l.maxWidth = .ok () ∧ checkRange .height l.minHeight l.maxHeight =
      .ok () ∧ l.Sound := by
  simp only [check, andThen_eq_ok_iff, failIf_eq_ok_iff, placed_iff]
  exact ⟨fun ⟨hw, hh, hs, hp, hl, hl', hpos⟩ => ⟨hw, hh, hs, hp, hl, hl', hpos⟩,
    fun ⟨hw, hh, hs, hp, hl, hl', hpos⟩ => ⟨hw, hh, hs, hp, hl, hl', hpos⟩⟩

theorem Sound.check_eq_ok_iff {l : Layout} (h : l.Sound) :
    l.check = .ok () ↔ ∀ axis least most, ¬ l.Crossed axis least most := by
  rw [Layout.check_eq_ok_iff, checkRange_eq_ok_iff, checkRange_eq_ok_iff]
  refine ⟨fun ⟨hw, hh, _⟩ axis least most hc => ?_, fun hall => ⟨?_, ?_, h⟩⟩
  · cases axis with
    | width => exact hw least most hc.1 hc.2
    | height => exact hh least most hc.1 hc.2
  · exact fun least most hb hlt => hall .width least most ⟨hb, hlt⟩
  · exact fun least most hb hlt => hall .height least most ⟨hb, hlt⟩

/-- Bounds that are crossed are all that can be wrong with a sound layout. -/
theorem Sound.crossed_of_check {l : Layout} (h : l.Sound) {fault : ValueFault}
    (hc : l.check = .error fault) :
    ∃ axis least most, l.Crossed axis least most ∧ fault = .minAboveMax axis least most := by
  cases hw : checkRange .width l.minWidth l.maxWidth with
  | error f =>
      obtain ⟨least, most, hb, hlt, rfl⟩ := checkRange_eq_error hw
      rw [check, hw] at hc
      cases hc
      exact ⟨.width, least, most, ⟨hb, hlt⟩, rfl⟩
  | ok _ =>
      cases hh : checkRange .height l.minHeight l.maxHeight with
      | error f =>
          obtain ⟨least, most, hb, hlt, rfl⟩ := checkRange_eq_error hh
          rw [check, hw, hh] at hc
          cases hc
          exact ⟨.height, least, most, ⟨hb, hlt⟩, rfl⟩
      | ok _ =>
          rw [(Layout.check_eq_ok_iff l).mpr ⟨hw, hh, h⟩] at hc
          cases hc

theorem Sound.withDefaults {l m : Layout} (hl : l.Sound) (hm : m.Sound) :
    (l.withDefaults m).Sound := by
  refine ⟨check_or hl.spacing hm.spacing, check_or hl.padding hm.padding,
    check_or hl.width hm.width, check_or hl.height hm.height, ?_⟩
  -- the side that gives the position has an offset of its own
  have := hl.placed
  have := hm.placed
  simp only [Layout.withDefaults, Option.isSome_or, Bool.or_eq_true]
  tauto

end Layout

/-! ### Variants and classes -/

namespace Variants

variable {κ : Type}

/-- Every variant passes its check. -/
def Sound (m : Variants κ) : Prop := ∀ p ∈ m, p.2.check = .ok ()

theorem check_eq_ok_iff (part : κ → ClassPart) (span : Span) (m : Variants κ) :
    m.check part span = .ok () ↔ m.Sound := by
  induction m with
  | nil => simp [check, Sound]
  | cons p m ih =>
      rw [check, andThen_eq_ok_iff, mapError_eq_ok_iff, ih, Sound, Sound, List.forall_mem_cons]

theorem Sound.withDefaults [DecidableEq κ] {m n : Variants κ} (hm : m.Sound) (hn : n.Sound) :
    (m.withDefaults n).Sound := by
  intro p hp
  rw [Variants.withDefaults] at hp
  rcases List.mem_append.mp hp with hp | hp
  · obtain ⟨q, hq, rfl⟩ := List.mem_map.mp hp
    cases hother : OrderedMap.get? n q.1 with
    | none => simpa [entryWithDefaults, hother] using hm q hq
    | some s =>
        have hs : s.check = .ok () := hn _ (OrderedMap.mem_of_get?_eq_some hother)
        simpa [entryWithDefaults, hother] using Style.check_withDefaults (hm q hq) hs
  · exact hn p (List.mem_of_mem_filter hp)

end Variants

namespace StyleClass

/-- A class that passes all checks but, perhaps, that of the order of its bounds. -/
structure Sound (c : StyleClass) : Prop where
  style : c.style.check = .ok ()
  layout : ∀ l, c.layout = some l → l.Sound
  states : c.states.Sound
  combined : c.combined.Sound

/-- The check of the layout of a class, where it has one. -/
def checkLayout (c : StyleClass) : Except ClassFault Unit :=
  match c.layout with
  | some l => l.check.mapError fun fault => ⟨.layout, fault, c.span⟩
  | none => .ok ()

theorem check_eq (c : StyleClass) : c.check = (do
    c.style.check.mapError fun fault => (⟨.style, fault, c.span⟩ : ClassFault)
    c.checkLayout
    c.states.check .state c.span
    c.combined.check .selector c.span) := by
  rw [check, checkLayout]
  cases c.layout <;> rfl

theorem checkLayout_eq_ok_iff (c : StyleClass) :
    c.checkLayout = .ok () ↔ ∀ l, c.layout = some l → l.check = .ok () := by
  rw [checkLayout]
  cases c.layout with
  | none => simp
  | some l => simp [mapError_eq_ok_iff]

theorem check_eq_ok_iff (c : StyleClass) : c.check = .ok () ↔
    c.style.check = .ok () ∧ (∀ l, c.layout = some l → l.check = .ok ()) ∧ c.states.Sound ∧
    c.combined.Sound := by
  rw [check_eq, andThen_eq_ok_iff, andThen_eq_ok_iff, andThen_eq_ok_iff, mapError_eq_ok_iff,
    checkLayout_eq_ok_iff, Variants.check_eq_ok_iff, Variants.check_eq_ok_iff]

theorem sound_of_check {c : StyleClass} (h : c.check = .ok ()) : c.Sound :=
  have ⟨hstyle, hlayout, hstates, hcombined⟩ := (check_eq_ok_iff c).mp h
  ⟨hstyle, fun l hl => ((Layout.check_eq_ok_iff l).mp (hlayout l hl)).2.2, hstates, hcombined⟩

theorem Sound.check_eq_ok_iff {c : StyleClass} (h : c.Sound) :
    c.check = .ok () ↔ ∀ l, c.layout = some l → ∀ axis least most, ¬ l.Crossed axis least most := by
  rw [StyleClass.check_eq_ok_iff]
  exact ⟨fun hc l hl => ((h.layout l hl).check_eq_ok_iff).mp (hc.2.1 l hl),
    fun hc =>
      ⟨h.style, fun l hl => ((h.layout l hl).check_eq_ok_iff).mpr (hc l hl), h.states, h.combined⟩⟩

/-- Crossed bounds are all that can be wrong with a sound class. -/
theorem Sound.crossed_of_check {c : StyleClass} (h : c.Sound) {fault : ClassFault}
    (hc : c.check = .error fault) :
    ∃ l axis least most, c.layout = some l ∧ l.Crossed axis least most ∧
      fault = ⟨.layout, .minAboveMax axis least most, c.span⟩ := by
  have hstates := (Variants.check_eq_ok_iff .state c.span c.states).mpr h.states
  have hcombined := (Variants.check_eq_ok_iff .selector c.span c.combined).mpr h.combined
  rw [check_eq, h.style, hstates, hcombined, checkLayout] at hc
  cases hlayout : c.layout with
  | none =>
      rw [hlayout] at hc
      cases hc
  | some l =>
      rw [hlayout] at hc
      cases hl : l.check with
      | ok _ =>
          simp only [hl] at hc
          cases hc
      | error f =>
          simp only [hl] at hc
          cases hc
          obtain ⟨axis, least, most, hcrossed, rfl⟩ := (h.layout l hlayout).crossed_of_check hl
          exact ⟨l, axis, least, most, rfl, hcrossed, rfl⟩

theorem Sound.inherit {c d : StyleClass} (hc : c.Sound) (hd : d.Sound) : (c.inherit d).Sound := by
  refine ⟨Style.check_withDefaults hc.style hd.style,
    fun l hl => ?_, hc.states.withDefaults hd.states, hc.combined.withDefaults hd.combined⟩
  change layoutWithDefaults c.layout d.layout = some l at hl
  cases hown : c.layout with
  | none =>
      rw [hown] at hl
      exact hd.layout l hl
  | some own =>
      cases hother : d.layout with
      | none =>
          rw [hown, hother] at hl
          exact Option.some.inj hl ▸ hc.layout own hown
      | some other =>
          rw [hown, hother] at hl
          exact Option.some.inj hl ▸ (hc.layout own hown).withDefaults (hd.layout other hother)

theorem Sound.foldl {c : StyleClass} {ps : List StyleClass} (hc : c.Sound)
    (hps : ∀ p ∈ ps, p.Sound) : (ps.foldl StyleClass.inherit c).Sound := by
  induction ps generalizing c with
  | nil => exact hc
  | cons p ps ih =>
      exact ih (hc.inherit (hps p (by simp))) fun q hq => hps q (List.mem_cons_of_mem _ hq)

theorem Sound.mergeParents {c : StyleClass} {ps : List StyleClass} (hc : c.Sound)
    (hps : ∀ p ∈ ps, p.Sound) : (c.mergeParents ps).Sound := by
  cases ps with
  | nil => exact hc
  | cons p ps =>
      exact hc.inherit (Sound.foldl (hps p (by simp)) fun q hq => hps q (List.mem_cons_of_mem _ hq))

end StyleClass

namespace ClassMap

theorem sound_of_derives {m : ClassMap} (valid : ∀ name c, m.get? name = some c → c.Sound)
    {name : String} {d : Nat} {v : StyleClass} (derived : m.lineage.Derives name d v) :
    v.Sound := by
  induction derived with
  | @intro name c depth form found _ ih =>
      rw [assemble_eq]
      refine (valid name c found).mergeParents ?_
      rintro p hp
      obtain ⟨parent, mem, rfl⟩ := List.mem_map.mp hp
      exact ih parent mem

theorem Ancestry.known {m : ClassMap} {name : String} {walk : List StyleClass}
    (h : m.Ancestry name walk) : ∀ a ∈ walk, ∃ n, m.get? n = some a := by
  induction h with
  | @intro name c walk found _ ih =>
      rintro a (_ | ⟨_, ha⟩)
      · exact ⟨name, found⟩
      · obtain ⟨p, hp, hap⟩ := List.mem_flatMap.mp ha
        exact ih p hp a hap

end ClassMap

/-- Each bound of a merged layout is that of some layout. -/
theorem Layout.bounds_firstSet (layouts : List Layout) (axis : Axis) :
    (Layout.firstSet layouts).bounds axis =
      (layouts.findSome? fun l => (l.bounds axis).1,
        layouts.findSome? fun l => (l.bounds axis).2) := by
  cases axis <;> rfl

theorem StyleClass.exists_of_findSome? {walk : List StyleClass} {f : Layout → Option Float}
    {x : Float} (h : (walk.filterMap StyleClass.layout).findSome? f = some x) :
    ∃ a ∈ walk, ∃ l, a.layout = some l ∧ f l = some x := by
  obtain ⟨l, hl, hx⟩ := List.exists_of_findSome?_eq_some h
  obtain ⟨a, ha, hal⟩ := List.mem_filterMap.mp hl
  exact ⟨a, ha, l, hal, hx⟩

namespace ClassMap

/-- Valid classes resolve to classes whose style and variants are valid, and whose layout is valid
unless a largest size is below the least one. Then the two sizes come from different classes on the
walk, neither of which sets the other's size like it. -/
theorem check_resolveAll {m r : ClassMap}
    (valid : ∀ name c, m.get? name = some c → c.check = .ok ()) (resolved : m.resolveAll = .ok r)
    {name : String} {v : StyleClass} (value : r.get? name = some v) :
    v.style.check = .ok () ∧ (∀ p ∈ v.states, p.2.check = .ok ()) ∧
      (∀ p ∈ v.combined, p.2.check = .ok ()) ∧
      (∀ l, v.layout = some l → l.Sound) ∧
      (v.check = .ok () ↔ ∀ l, v.layout = some l → ∀ axis least most, ¬ l.Crossed axis least most) ∧
      ∀ fault, v.check = .error fault → ∃ l axis least most,
        v.layout = some l ∧ l.Crossed axis least most ∧
        fault = ⟨.layout, .minAboveMax axis least most, v.span⟩ ∧
        ∃ walk, m.Ancestry name walk ∧
          (∃ a ∈ walk, ∃ la, a.layout = some la ∧ (la.bounds axis).1 = some least ∧
            (la.bounds axis).2 ≠ some most) ∧
          ∃ b ∈ walk, ∃ lb, b.layout = some lb ∧ (lb.bounds axis).2 = some most ∧
            (lb.bounds axis).1 ≠ some least := by
  obtain ⟨keys, values⟩ := Lineage.resolveAllFresh_ok (resolveAll_eq_ok_iff.mp resolved)
  have known : m.lineage.entities.has name = true := by
    rw [OrderedMap.has_iff_mem_keys, ← keys]
    exact (OrderedMap.has_iff_mem_keys r name).mp (by simp [OrderedMap.has, value])
  obtain ⟨d, v', derived, _, value'⟩ := values name known
  obtain rfl : v' = v := Option.some.inj (value'.symm.trans value)
  have sound := sound_of_derives (fun n c h => StyleClass.sound_of_check (valid n c h)) derived
  refine ⟨sound.style, sound.states, sound.combined, sound.layout, sound.check_eq_ok_iff,
    fun fault hc => ?_⟩
  obtain ⟨l, axis, least, most, hl, ⟨hbounds, hlt⟩, rfl⟩ := sound.crossed_of_check hc
  obtain ⟨walk, walks, reads⟩ := reads_of_derives derived
  refine ⟨l, axis, least, most, hl, ⟨hbounds, hlt⟩, rfl, walk, walks, ?_⟩
  -- no class of the walk has both bounds, since its own check would have found them crossed
  have apart : ∀ a ∈ walk, ∀ la, a.layout = some la → la.bounds axis ≠ (some least, some most) := by
    intro a ha la hla both
    obtain ⟨n, found⟩ := walks.known a ha
    have hcheck := valid n a found
    exact ((StyleClass.sound_of_check hcheck).check_eq_ok_iff.mp hcheck) la hla
      axis least most ⟨both, hlt⟩
  obtain rfl := eq_of_ofSome? (reads.layout ▸ hl)
  rw [Layout.bounds_firstSet, Prod.mk.injEq] at hbounds
  obtain ⟨a, ha, la, hla, hleast⟩ := StyleClass.exists_of_findSome? hbounds.1
  obtain ⟨b, hb, lb, hlb, hmost⟩ := StyleClass.exists_of_findSome? hbounds.2
  exact ⟨⟨a, ha, la, hla, hleast, fun h => apart a ha la hla (Prod.ext hleast h)⟩,
    ⟨b, hb, lb, hlb, hmost, fun h => apart b hb lb hlb (Prod.ext h hmost)⟩⟩

/-- A class that is at least so wide, and its parent, which is at most so wide. -/
def squeezed (least most : Float) : ClassMap :=
  [("card", { name := "card", parents := ["panel"], layout := some { minWidth := some least } }),
    ("panel",
      { name := "panel", style := { color := some .black },
        layout := some { maxWidth := some most } })]

/-- The class of `squeezed` with what it inherits. -/
def squeezedCard (least most : Float) : StyleClass where
  name := "card"
  parents := ["panel"]
  style := { color := some .black }
  layout := some { minWidth := some least, maxWidth := some most }

theorem exists_resolveAll_squeezed (least most : Float) :
    ∃ r, (squeezed least most).resolveAll = .ok r ∧
      r.get? "card" = some (squeezedCard least most) :=
  ⟨_, by cbv, by cbv⟩

theorem check_of_get?_squeezed (least most : Float) (name : String) (c : StyleClass)
    (found : (squeezed least most).get? name = some c) : c.check = .ok () := by
  have all : ∀ p ∈ squeezed least most, p.2.check = .ok () := by
    simp only [squeezed, List.mem_cons, List.not_mem_nil, or_false, forall_eq_or_imp, forall_eq]
    exact ⟨by rfl, by rfl⟩
  exact all _ (OrderedMap.mem_of_get?_eq_some found)

theorem check_resolveAll_squeezed :
    ∃ r, (squeezed 100 50).resolveAll = .ok r ∧ r.get? "card" = some (squeezedCard 100 50) ∧
      (squeezedCard 100 50).style.check = .ok () ∧ ∀ fault,
        (squeezedCard 100 50).check = .error fault →
        ∃ axis least most, fault = ⟨.layout, .minAboveMax axis least most, .origin⟩ := by
  obtain ⟨r, resolved, value⟩ := exists_resolveAll_squeezed 100 50
  obtain ⟨style, _, _, _, _, faults⟩ :=
    check_resolveAll (check_of_get?_squeezed 100 50) resolved value
  refine ⟨r, resolved, value, style, fun fault hc => ?_⟩
  obtain ⟨_, axis, least, most, _, _, rfl, _⟩ := faults fault hc
  exact ⟨axis, least, most, rfl⟩

/-- A class of a parent that is never as wide as the class always is. -/
theorem exists_check_ne_ok_squeezed : ∃ r v,
    (∀ name c, (squeezed 100 50).get? name = some c → c.check = .ok ()) ∧
      (squeezed 100 50).resolveAll = .ok r ∧ r.get? "card" = some v ∧ v.check ≠ .ok () := by
  obtain ⟨r, resolved, value⟩ := exists_resolveAll_squeezed 100 50
  refine ⟨r, squeezedCard 100 50, check_of_get?_squeezed 100 50, resolved, value, fun hc => ?_⟩
  obtain ⟨_, hlayout, _⟩ := (StyleClass.check_eq_ok_iff _).mp hc
  obtain ⟨hwidth, _⟩ := (Layout.check_eq_ok_iff _).mp (hlayout _ rfl)
  exact (Layout.checkRange_eq_ok_iff _ _ _).mp hwidth 100 50 rfl (by decide)

end ClassMap
end UiMarkup
