import UiMarkup.Proofs.Number.Nearest
import UiMarkup.Proofs.Style.ColorText
import UiMarkup.Style.Gradient

/-!
Gradients from text. The stops that a gradient is written with are read back, each with its color
and its offset. A stop without an offset gets its even share of the way, which does not depend on
the offsets around it, so the gradient is accepted exactly if each given offset next to such a stop
is on the right side of that share.
-/

namespace UiMarkup

open Number Text Value

namespace Color

theorem inUnit_iff {x : Float} : inUnit x = true ↔ 0.0 ≤ x ∧ x ≤ 1.0 := by
  simp [inUnit]

theorem isNaN_of_inUnit {x : Float} (h : inUnit x = true) : x.isNaN = false :=
  (le_iff_rank.mp (inUnit_iff.mp h).1).2.1

end Color

namespace Gradient

variable {offsets : List (Option Float)} {stops : List (Color × Option Float)} {count i : ℕ}

/-! ### Even shares -/

theorem inUnit_evenOffset (hcount : count ≤ maxStops) (hi : i < count) :
    Color.inUnit (evenOffset i count) = true := by
  have hall : ∀ n < maxStops + 1, ∀ i < n, Color.inUnit (evenOffset i n) = true := by decide +kernel
  exact hall count (Nat.lt_succ_of_le hcount) i hi

theorem evenOffset_lt_succ (hcount : count ≤ maxStops) (hi : i + 1 < count) :
    evenOffset i count < evenOffset (i + 1) count := by
  have hall : ∀ n < maxStops + 1, ∀ i < n, i + 1 < n → evenOffset i n < evenOffset (i + 1) n := by
    decide +kernel
  exact hall count (Nat.lt_succ_of_le hcount) i (Nat.lt_of_succ_lt hi) hi

/-! ### Placed stops -/

/-- The offsets that are given, and the even shares of the stops without one. -/
def filled (offsets : List (Option Float)) : List Float :=
  offsets.mapIdx fun i offset => offset.getD (evenOffset i offsets.length)

theorem map_offset_placeStops (count index : ℕ) (stops : List (Color × Option Float)) :
    (placeStops count index stops).map ColorStop.offset =
      (stops.map Prod.snd).mapIdx fun i offset => offset.getD (evenOffset (index + i) count) := by
  induction stops generalizing index with
  | nil => rfl
  | cons stop stops ih =>
      rw [placeStops, List.map_cons, ih, List.map_cons, List.mapIdx_cons]
      simp only [Nat.add_zero, Nat.add_right_comm, Nat.add_assoc]

theorem offsets_placeStops (stops : List (Color × Option Float)) :
    (placeStops stops.length 0 stops).map ColorStop.offset = filled (stops.map Prod.snd) := by
  rw [map_offset_placeStops, filled, List.length_map]
  simp only [Nat.zero_add]

theorem map_color_placeStops (count index : ℕ) (stops : List (Color × Option Float)) :
    (placeStops count index stops).map ColorStop.color = stops.map Prod.fst := by
  induction stops generalizing index with
  | nil => rfl
  | cons stop stops ih => rw [placeStops, List.map_cons, ih, List.map_cons]

/-- A given offset next to a stop without one is on the right side of what that stop gets. -/
structure Fits (offsets : List (Option Float)) : Prop where
  before : ∀ i x, offsets[i]? = some (some x) → offsets[i + 1]? = some none →
    x < evenOffset (i + 1) offsets.length
  after : ∀ i x, offsets[i]? = some none → offsets[i + 1]? = some (some x) →
    evenOffset i offsets.length < x

theorem inUnit_filled (few : offsets.length ≤ maxStops)
    (unit : ∀ x, some x ∈ offsets → Color.inUnit x = true) :
    ∀ x ∈ filled offsets, Color.inUnit x = true := by
  intro x hx
  obtain ⟨i, hi, rfl⟩ := List.mem_iff_getElem.mp hx
  rw [filled, List.length_mapIdx] at hi
  simp only [filled, List.getElem_mapIdx]
  cases hoffset : offsets[i] with
  | none => exact inUnit_evenOffset few hi
  | some y => exact unit y (hoffset ▸ List.getElem_mem hi)

/-- The offsets ascend exactly if those that are given fit the shares of the others. -/
theorem isChain_filled_iff (few : offsets.length ≤ maxStops)
    (given : ∀ i x y, offsets[i]? = some (some x) → offsets[i + 1]? = some (some y) → x < y) :
    (filled offsets).IsChain (· < ·) ↔ Fits offsets := by
  rw [List.isChain_iff_getElem]
  simp only [filled, List.getElem_mapIdx, List.length_mapIdx]
  constructor
  · intro h
    constructor
    · intro i x hx hnone
      obtain ⟨hi, hnone⟩ := List.getElem?_eq_some_iff.mp hnone
      obtain ⟨_, hx⟩ := List.getElem?_eq_some_iff.mp hx
      simpa [hx, hnone] using h i hi
    · intro i x hnone hx
      obtain ⟨hi, hx⟩ := List.getElem?_eq_some_iff.mp hx
      obtain ⟨_, hnone⟩ := List.getElem?_eq_some_iff.mp hnone
      simpa [hx, hnone] using h i hi
  · intro h i hi
    have hthis := List.getElem?_eq_getElem (Nat.lt_of_succ_lt hi)
    have hnext := List.getElem?_eq_getElem hi
    cases hx : offsets[i] with
    | none =>
        rw [hx] at hthis
        cases hy : offsets[i + 1] with
        | none => exact evenOffset_lt_succ few hi
        | some y => exact h.after i y hthis (hy ▸ hnext)
    | some x =>
        rw [hx] at hthis
        cases hy : offsets[i + 1] with
        | none => exact h.before i x hthis (hy ▸ hnext)
        | some y => exact given i x y hthis (hy ▸ hnext)

/-! ### The check of stops -/

theorem checkStops_cons {last : Float} {s : ColorStop} {placed : List ColorStop}
    (color : s.color.check = .ok ()) (unit : Color.inUnit s.offset = true) :
    checkStops last (s :: placed) =
      if s.offset ≤ last then .error .stopOrder else checkStops s.offset placed := by
  rw [checkStops, if_neg (by simp [unit]), color]
  split <;> rfl

variable {last : Float} {placed : List ColorStop}

/-- Of stops in range, those that ascend are accepted, and all others are
refused for their order. -/
theorem checkStops_of_inUnit (hlast : last.isNaN = false)
    (colors : ∀ s ∈ placed, s.color.check = .ok ())
    (unit : ∀ s ∈ placed, Color.inUnit s.offset = true) :
    checkStops last placed =
      if (last :: placed.map ColorStop.offset).IsChain (· < ·) then .ok ()
      else .error .stopOrder := by
  induction placed generalizing last with
  | nil => simp [checkStops]
  | cons s placed ih =>
      rw [List.forall_mem_cons] at colors unit
      have hnumber := Color.isNaN_of_inUnit unit.1
      rw [checkStops_cons colors.1 unit.1]
      simp only [List.map_cons, List.isChain_cons_cons]
      by_cases hle : s.offset ≤ last
      · rw [if_pos hle, if_neg fun h => not_le_of_lt h.1 hle]
      · have hlt : last < s.offset := (lt_iff_of_not_le hle).mpr ⟨hnumber, hlast⟩
        rw [if_neg hle, ih hnumber colors.2 unit.2]
        simp only [hlt, true_and]

theorem isChain_cons_of_inUnit {xs : List Float} (unit : ∀ x ∈ xs, Color.inUnit x = true) :
    ((-1.0) :: xs).IsChain (· < ·) ↔ xs.IsChain (· < ·) := by
  cases xs with
  | nil => simp
  | cons x xs =>
      have hzero : (-1.0 : Float) < 0.0 := by decide
      have hlt : -1.0 < x :=
        lt_of_lt_of_le hzero (Color.inUnit_iff.mp (unit x List.mem_cons_self)).1
      simp only [List.isChain_cons_cons, hlt, true_and]

theorem checkStops_placeStops (many : stops.length ≤ maxStops)
    (colors : ∀ s ∈ stops, s.1.check = .ok ())
    (unit : ∀ x, some x ∈ stops.map Prod.snd → Color.inUnit x = true) :
    checkStops (-1.0) (placeStops stops.length 0 stops) =
      if (filled (stops.map Prod.snd)).IsChain (· < ·) then .ok () else .error .stopOrder := by
  have hunit : ∀ x ∈ filled (stops.map Prod.snd), Color.inUnit x = true :=
    inUnit_filled (by rwa [List.length_map]) unit
  rw [checkStops_of_inUnit (by decide)]
  · simp only [offsets_placeStops, isChain_cons_of_inUnit hunit]
  · intro s hs
    have hmem : s.color ∈ stops.map Prod.fst :=
      map_color_placeStops stops.length 0 stops ▸ List.mem_map_of_mem hs
    obtain ⟨stop, hstop, hcolor⟩ := List.mem_map.mp hmem
    exact hcolor ▸ colors stop hstop
  · intro s hs
    exact hunit _ (offsets_placeStops stops ▸ List.mem_map_of_mem hs)

/-! ### Stops from text -/

theorem isSeparator_of_isOffset {word : List Char} (h : isOffset word = true) :
    ∀ c ∈ word, isSeparator c = false := by
  have hchar {c : Char} (hc : isOffsetChar c = true) : isSeparator c = false := by
    obtain hc | hc := Bool.or_eq_true_iff.mp hc
    · exact isSeparator_of_isDecimal hc
    · obtain rfl := beq_iff_eq.mp hc
      decide
  have hunsigned {w : List Char} (hw : (!((dropSuffix? ['%'] w).getD w).isEmpty &&
      ((dropSuffix? ['%'] w).getD w).all isOffsetChar) = true) : ∀ c ∈ w,
        isSeparator c = false := by
    have hall := (Bool.and_eq_true_iff.mp hw).2
    rw [List.all_eq_true] at hall
    cases hdrop : dropSuffix? ['%'] w with
    | none =>
        rw [hdrop] at hall
        exact fun c hc => hchar (hall c hc)
    | some body =>
        rw [hdrop] at hall
        rw [dropSuffix?_eq_some_iff.mp hdrop, List.forall_mem_append]
        exact ⟨fun c hc => hchar (hall c hc), List.forall_mem_singleton.mpr (by decide)⟩
  unfold isOffset at h
  dsimp only at h
  split at h
  · exact List.forall_mem_cons.mpr ⟨by decide, hunsigned h⟩
  · exact hunsigned h

/-- The characters that a text ends in up to the last blank. -/
def lastWord (text : List Char) : List Char := (text.reverse.takeWhile fun c => !isBlank c).reverse

theorem lastWord_append (text : List Char) {ending : List Char}
    (h : ∀ c ∈ ending, isBlank c = false) :
    lastWord (text ++ ending) = lastWord text ++ ending := by
  rw [lastWord, List.reverse_append, List.takeWhile_append_of_pos (by simpa using h),
    List.reverse_append, List.reverse_reverse, lastWord]

theorem lastWord_append_of_isBlank {text gap : List Char} (h : ∀ c ∈ gap, isBlank c = true)
    (hne : gap ≠ []) : lastWord (text ++ gap) = [] := by
  obtain ⟨gap, c, rfl⟩ := gap.eq_nil_or_concat.resolve_left hne
  have hc : isBlank c = true := h c (by simp)
  simp [lastWord, hc]

/-- The last word of a text, if something stands before it. -/
theorem cutLastWord?_append {before gap word : List Char} (hbefore : Bare isBlank before)
    (hne : before ≠ []) (hgap : ∀ c ∈ gap, isBlank c = true) (hgapNe : gap ≠ [])
    (hword : ∀ c ∈ word, isBlank c = false) (hwordNe : word ≠ []) :
    cutLastWord? (before ++ gap ++ word) = some (before, word) := by
  have hlast : lastWord (before ++ gap ++ word) = word := by
    rw [lastWord_append _ hword, lastWord_append_of_isBlank hgap hgapNe, List.nil_append]
  rw [lastWord] at hlast
  have hcut : trimRightBy isBlank (before ++ gap) = before :=
    (trimRightBy_append hgap).trans (trimRightBy_of_getLast? hbefore.last)
  simp only [cutLastWord?, trimRightBy_append_of_forall _ hword hwordNe, hlast]
  rw [List.length_append, Nat.add_sub_cancel, List.take_left, hcut]
  simp [hne, hwordNe]

theorem cutLastWord?_of_forall {word : List Char} (h : ∀ c ∈ word, isBlank c = false) :
    cutLastWord? word = none := by
  have hbody : trimRightBy isBlank word = word :=
    trimRightBy_of_getLast? fun c hc => h c (List.mem_of_getLast? hc)
  have hlast : lastWord word = word := by
    simpa [lastWord] using lastWord_append [] h
  rw [lastWord] at hlast
  have hnil : trimRightBy isBlank [] = [] := rfl
  simp only [cutLastWord?, hbody, hlast, Nat.sub_self, List.take_zero, hnil]
  rfl

theorem mem_of_cutLastWord? {text ending before word : List Char}
    (hending : ∀ c ∈ ending, isBlank c = false)
    (h : cutLastWord? (text ++ ending) = some (before, word)) : ∀ c ∈ ending, c ∈ word := by
  intro c hc
  have hbody := trimRightBy_append_of_forall text hending (List.ne_nil_of_mem hc)
  have hlast := lastWord_append text hending
  rw [lastWord] at hlast
  simp only [cutLastWord?, hbody, hlast] at h
  split at h
  · cases h
  · cases h
    exact List.mem_append_right _ hc

theorem readStop_of_color {text : List Char} {color : Color} (hblank : text.all isBlank = false)
    (reads : Color.parse text = .ok color)
    (hword : ∀ before word, cutLastWord? text = some (before, word) → isOffset word = false) :
    readStop text = .ok (color, none) := by
  rw [readStop, if_neg (by simp [hblank])]
  split
  · rename_i before word hcut
    rw [if_neg (by simp [hword before word hcut]), reads]
    rfl
  · rw [reads]
    rfl

theorem readStop_of_offset {text before word : List Char} {color : Color} {x : Float}
    (hblank : text.all isBlank = false) (hcut : cutLastWord? text = some (before, word))
    (form : isOffset word = true) (offset : readOffset word = .ok x)
    (reads : Color.parse before = .ok color) : readStop text = .ok (color, some x) := by
  rw [readStop, if_neg (by simp [hblank]), hcut]
  dsimp only
  rw [if_pos form, offset, reads]
  rfl

/-- A stop as text: a color, and behind it an offset if the stop has one. Blanks
may stand around both. -/
inductive WritesStop : Color × Option Float → List Char → Prop
  | bare {color : Color} {text : List Char} (reads : Color.parse text = .ok color) :
      WritesStop (color, none) text
  | placed {color : Color} {x : Float} {text gap word tail : List Char}
      (reads : Color.parse text = .ok color) (apart : gap ≠ [])
      (blankGap : ∀ c ∈ gap, isBlank c = true) (form : isOffset word = true)
      (offset : readOffset word = .ok x) (blankTail : ∀ c ∈ tail, isBlank c = true) :
      WritesStop (color, some x) (text ++ (gap ++ (word ++ tail)))

namespace WritesStop

variable {stop : Color × Option Float} {text : List Char}

theorem closes (h : WritesStop stop text) : Closes 0 text := by
  cases h with
  | bare reads => exact Color.closes_of_parse reads
  | placed reads _ blankGap form _ blankTail =>
      have hword : IsAtom _ := .of_isSeparator (isSeparator_of_isOffset form)
      exact (Color.closes_of_parse reads).append
        (IsAtom.append (.of_forall blankGap) (hword.append (.of_forall blankTail))).closes

theorem readStop_of_isWordOrCall {color : Color} {text : List Char} (shape : IsWordOrCall text)
    (hbare : Bare isBlank text) (hne : text ≠ []) (reads : Color.parse text = .ok color) :
    readStop text = .ok (color, none) := by
  apply readStop_of_color (hbare.all_eq_false hne) reads
  intro before word hcut
  cases shape with
  | word plain =>
      rw [cutLastWord?_of_forall fun c hc => isBlank_of_isSeparator (plain c hc)] at hcut
      cases hcut
  | @call name inner rest plain flat plainRest =>
      -- the last word ends in the parenthesis and what follows it
      have hending : ∀ c ∈ ')' :: rest, isBlank c = false :=
        List.forall_mem_cons.mpr ⟨by decide, fun c hc => isBlank_of_isSeparator (plainRest c hc)⟩
      rw [← List.cons_append, ← List.append_assoc] at hcut
      have hmem := mem_of_cutLastWord? hending hcut ')' List.mem_cons_self
      by_contra hoffset
      have hplain := isSeparator_of_isOffset (Bool.eq_true_of_not_eq_false hoffset) ')' hmem
      exact absurd hplain (by decide)

theorem readStop_trim (h : WritesStop stop text) : readStop (trim text) = .ok stop := by
  cases h with
  | bare reads =>
      have ⟨hshape, hne, hreads⟩ := Color.parse_ok reads
      exact readStop_of_isWordOrCall hshape (bare_trimBy isBlank text) hne hreads
  | @placed color x text gap word tail reads apart blankGap form offset blankTail =>
      have ⟨_, hne, hreads⟩ := Color.parse_ok reads
      obtain ⟨a, b, htext, ha, hb⟩ := exists_trimBy isBlank text
      have hbare := bare_trimBy isBlank text
      change text = a ++ trim text ++ b at htext
      change Bare isBlank (trim text) at hbare
      have hword : ∀ c ∈ word, isBlank c = false := fun c hc =>
        isBlank_of_isSeparator (isSeparator_of_isOffset form c hc)
      have hwordNe : word ≠ [] := by
        rintro rfl
        exact absurd form (by decide)
      have hgap : ∀ c ∈ b ++ gap, isBlank c = true := List.forall_mem_append.mpr ⟨hb, blankGap⟩
      have hcore : Bare isBlank (trim text ++ (b ++ gap) ++ word) :=
        hbare.around hne (.of_forall hword) hwordNe
      have htrim : trim (text ++ (gap ++ (word ++ tail))) = trim text ++ (b ++ gap) ++ word := by
        rw [← hcore.trimBy_append ha blankTail, trim]
        congr 1
        conv_lhs => rw [htext]
        simp only [List.append_assoc]
      rw [htrim]
      exact readStop_of_offset (hcore.all_eq_false (by simp [hwordNe]))
        (cutLastWord?_append hbare hne hgap (by simp [apart]) hword hwordNe) form offset hreads

end WritesStop

theorem closes_of_writesStop {stops : List (Color × Option Float)} {texts : List (List Char)}
    (h : List.Forall₂ WritesStop stops texts) : ∀ t ∈ texts, Closes 0 t := by
  induction h with
  | nil => exact List.forall_mem_nil _
  | cons stop _ ih => exact List.forall_mem_cons.mpr ⟨stop.closes, ih⟩

theorem readStops_of_writesStop {stops : List (Color × Option Float)} {texts : List (List Char)}
    (h : List.Forall₂ WritesStop stops texts) :
    readStops (texts.map trim) = .ok (placeStops stops.length 0 stops) := by
  have hstops : (texts.map trim).mapM readStop = .ok stops := by
    induction h with
    | nil => rfl
    | cons stop _ ih =>
        rw [List.map_cons, List.mapM_cons, stop.readStop_trim, ih]
        rfl
  rw [readStops, hstops]
  rfl

/-! ### Gradients from text -/

theorem isAtom_of_readDegrees {value : List Char} {degrees : Float}
    (h : readDegrees value = .ok degrees) : IsAtom value := by
  unfold readDegrees at h
  split at h
  · rename_i d hdrop
    exact .of_dropSuffix? hdrop (by decide) (isAtom_of_number h)
  · rename_i d _ hdrop
    obtain ⟨x, hx, _⟩ := bind_eq_ok_iff.mp h
    exact .of_dropSuffix? hdrop (by decide) (isAtom_of_number hx)
  · rename_i d _ _ hdrop
    obtain ⟨x, hx, _⟩ := bind_eq_ok_iff.mp h
    exact .of_dropSuffix? hdrop (by decide) (isAtom_of_number hx)
  · exact isAtom_of_number h

theorem isAtom_of_readAngle {first : List Char} {angle : Float} (h : readAngle first = .ok angle) :
    IsAtom first := by
  obtain ⟨degrees, hdegrees, _⟩ := bind_eq_ok_iff.mp h
  exact (isAtom_of_readDegrees hdegrees).of_trim

theorem isAtom_of_keyword {first : List Char} {shape : RadialShape} {what expected : String}
    (h : keyword RadialShape.all RadialShape.name what expected first = .ok shape) :
    IsAtom first := by
  have hname : shape.name = keywordForm (String.ofList first) := by
    unfold keyword at h
    dsimp only at h
    split at h
    · rename_i hfind
      cases h
      simpa using List.find?_some hfind
    · cases h
  have hlower : lower (trim first) = shape.name.toList := by
    rw [hname, keywordForm, String.toList_ofList, String.toList_ofList]
  have hnone : (trim first).filter isSeparator = [] := by
    rw [← filter_lower, hlower]
    cases shape <;> decide
  apply IsAtom.of_trim
  exact .of_isSeparator (by simpa using hnone)

theorem keyword_trim {α : Type} {all : List α} {name : α → String} {what expected : String}
    {text : List Char} {a : α} (h : keyword all name what expected text = .ok a) :
    keyword all name what expected (trim text) = .ok a := by
  have hform : keywordForm (String.ofList (trim text)) = keywordForm (String.ofList text) := by
    rw [keywordForm, keywordForm, String.toList_ofList, String.toList_ofList, trim_trim]
  unfold keyword at h ⊢
  rw [hform]
  dsimp only at h ⊢
  split at h
  · exact h
  · cases h

theorem readAngle_trim (text : List Char) : readAngle (trim text) = readAngle text := by
  rw [readAngle, readAngle, trim_trim]

/-- An angle that is a number is at most a full turn. -/
theorem readAngle_bounds {text : List Char} {angle : Float} (h : readAngle text = .ok angle)
    (number : angle.isNaN = false) : 0.0 ≤ angle ∧ angle ≤ fullTurn := by
  obtain ⟨degrees, _, hangle⟩ := bind_eq_ok_iff.mp h
  obtain rfl := Except.ok.inj hangle
  have ⟨hleast, hmost⟩ := floorMod_bounds (by decide) number
  have hzero : 0.0 ≤ nearest false 0 1 := by decide +kernel
  have hfull : nearest false 360 1 ≤ fullTurn := by decide +kernel
  exact ⟨le_trans hzero hleast, le_trans hmost hfull⟩

/-- What a gradient is written with besides its stops: the name of the function,
and an angle or a shape. -/
inductive WritesHead : List Char → List Char → (List ColorStop → Gradient) → Prop
  | linear {first : List Char} {angle : Float} (reads : readAngle first = .ok angle)
      (number : angle.isNaN = false) : WritesHead "linear-gradient".toList first (.linear angle)
  | radial {first : List Char} {shape : RadialShape}
      (reads : keyword RadialShape.all RadialShape.name "radial shape" "circle or ellipse" first =
        .ok shape) :
      WritesHead "radial-gradient".toList first (.radial shape)

namespace WritesHead

variable {name first : List Char} {make : List ColorStop → Gradient}

theorem closes (h : WritesHead name first make) : Closes 0 first := by
  cases h with
  | linear reads => exact (isAtom_of_readAngle reads).closes
  | radial reads => exact (isAtom_of_keyword reads).closes

theorem check_eq (h : WritesHead name first make) {placed : List ColorStop}
    (few : minStops ≤ placed.length) (many : placed.length ≤ maxStops) :
    (make placed).check = checkStops (-1.0) placed := by
  have hcounts (g : Gradient) (hstops : g.stops = placed) :
      ¬ g.stops.length < minStops ∧ ¬ maxStops < g.stops.length := by
    rw [hstops]
    exact ⟨Nat.not_lt.mpr few, Nat.not_lt.mpr many⟩
  cases h with
  | @linear _ angle reads number =>
      have ⟨least, most⟩ := readAngle_bounds reads number
      have ⟨hfew, hmany⟩ := hcounts (.linear angle placed) rfl
      rw [check, if_neg (by simp [least, most]), if_neg hfew, if_neg hmany]
      rfl
  | @radial _ shape _ =>
      have ⟨hfew, hmany⟩ := hcounts (.radial shape placed) rfl
      rw [check, if_neg hfew, if_neg hmany]
      rfl

theorem isFunctionChar_name (h : WritesHead name first make) :
    name ≠ [] ∧ ∀ c ∈ name, isFunctionChar c = true := by
  cases h with
  | linear => exact isFunctionName_iff.mp (by decide)
  | radial => exact isFunctionName_iff.mp (by decide)

theorem functionCall?_eq (h : WritesHead name first make) (inner : List Char) :
    functionCall? (trim (name ++ '(' :: (inner ++ [')']))) = some (name, inner) := by
  have hname := h.isFunctionChar_name
  have hbare : Bare isBlank (name ++ ('(' :: inner) ++ [')']) :=
    (Bare.of_forall fun c hc => isBlank_of_isSeparator
      (isSeparator_of_isFunctionChar (hname.2 c hc))).around hname.1
      (.of_forall (List.forall_mem_singleton.mpr (by decide))) (List.cons_ne_nil _ _)
  have htrim : trim (name ++ '(' :: (inner ++ [')'])) = name ++ '(' :: (inner ++ [')']) := by
    rw [List.append_assoc, List.cons_append] at hbare
    simpa [trim] using hbare.trimBy_append (List.forall_mem_nil _) (List.forall_mem_nil _)
  rw [htrim]
  exact functionCall?_eq_some_iff.mpr ⟨rfl, hname⟩

/-- A gradient is read from its arguments. -/
theorem parse_eq (h : WritesHead name first make) {stop : List Char} {texts : List (List Char)}
    (closed : ∀ t ∈ stop :: texts, Closes 0 t) {placed : List ColorStop}
    (reads : readStops ((stop :: texts).map trim) = .ok placed) :
    parse (name ++ '(' :: (joinWith [','] (first :: stop :: texts) ++ [')'])) =
      (make placed).check.map fun _ => make placed := by
  have harguments := arguments_joinWith (List.cons_ne_nil first (stop :: texts))
    (List.forall_mem_cons.mpr ⟨h.closes, closed⟩)
  rw [List.map_cons, List.map_cons] at harguments
  rw [List.map_cons] at reads
  rw [parse]
  dsimp only
  rw [h.functionCall?_eq]
  dsimp only
  rw [harguments]
  cases h with
  | @linear _ angle angleReads _ =>
      have hkind : kindOf? "linear-gradient".toList = some .linear := rfl
      rw [hkind]
      dsimp only
      rw [reads, readAngle_trim, angleReads]
      rfl
  | @radial _ shape shapeReads =>
      have hkind : kindOf? "radial-gradient".toList = some .radial := rfl
      rw [hkind]
      dsimp only
      rw [reads, keyword_trim shapeReads]
      rfl

end WritesHead

theorem lt_of_pairwise {stops : List (Color × Option Float)}
    (h : (stops.filterMap Prod.snd).Pairwise (· < ·)) (i : ℕ) (x y : Float)
    (hx : (stops.map Prod.snd)[i]? = some (some x))
    (hy : (stops.map Prod.snd)[i + 1]? = some (some y)) : x < y := by
  rw [List.getElem?_map, Option.map_eq_some_iff] at hx hy
  obtain ⟨s, hs, hx⟩ := hx
  obtain ⟨t, ht, hy⟩ := hy
  obtain ⟨hi, rfl⟩ := List.getElem?_eq_some_iff.mp hs
  obtain ⟨hj, rfl⟩ := List.getElem?_eq_some_iff.mp ht
  exact List.pairwise_iff_getElem.mp (List.pairwise_filterMap.mp h) i (i + 1) hi hj
    i.lt_succ_self x hx y hy

/-- A gradient that is written with from two to eight stops, whose colors are valid and whose given
offsets ascend from zero to one, is accepted exactly if each given offset fits the even shares next
to it. Its offsets then ascend. -/
theorem parse_of_writes {name first : List Char} {make : List ColorStop → Gradient}
    {stops : List (Color × Option Float)} {texts : List (List Char)}
    (head : WritesHead name first make) (written : List.Forall₂ WritesStop stops texts)
    (few : minStops ≤ stops.length) (many : stops.length ≤ maxStops)
    (colors : ∀ s ∈ stops, s.1.check = .ok ())
    (ascending : (stops.filterMap Prod.snd).Pairwise (· < ·))
    (unit : ∀ x ∈ stops.filterMap Prod.snd, Color.inUnit x = true) :
    let text := name ++ '(' :: (joinWith [','] (first :: texts) ++ [')'])
    let placed := placeStops stops.length 0 stops
    (Fits (stops.map Prod.snd) →
      parse text = .ok (make placed) ∧ (placed.map ColorStop.offset).Pairwise (· < ·)) ∧
    (¬ Fits (stops.map Prod.snd) → parse text = .error .stopOrder) := by
  intro text placed
  have hunit (x : Float) (hx : some x ∈ stops.map Prod.snd) : Color.inUnit x = true := by
    obtain ⟨s, hs, hsnd⟩ := List.mem_map.mp hx
    exact unit x (List.mem_filterMap.mpr ⟨s, hs, hsnd⟩)
  have hchain : (filled (stops.map Prod.snd)).IsChain (· < ·) ↔ Fits (stops.map Prod.snd) :=
    isChain_filled_iff (by rwa [List.length_map]) (lt_of_pairwise ascending)
  have hlength : placed.length = stops.length := by
    simpa using congrArg List.length (map_color_placeStops stops.length 0 stops)
  have hcheck : (make placed).check =
      if (filled (stops.map Prod.snd)).IsChain (· < ·) then .ok () else .error .stopOrder :=
    (head.check_eq (by rwa [hlength]) (by rwa [hlength])).trans
      (checkStops_placeStops many colors hunit)
  have hparse : parse text = (make placed).check.map fun _ => make placed := by
    have hreads := readStops_of_writesStop written
    have hclosed := closes_of_writesStop written
    cases texts with
    | nil =>
        obtain rfl := List.forall₂_nil_right_iff.mp written
        exact absurd few (by decide)
    | cons stop texts => exact head.parse_eq hclosed hreads
  constructor
  · intro fits
    rw [hparse, hcheck, if_pos (hchain.mpr fits)]
    refine ⟨rfl, ?_⟩
    rw [offsets_placeStops]
    exact List.isChain_iff_pairwise.mp (hchain.mpr fits)
  · intro misfit
    rw [hparse, hcheck, if_neg (hchain.not.mpr misfit)]
    rfl

/-- Offsets on both sides of a stop without one. -/
theorem fits_around {x y : Float} (hx : x < evenOffset 1 3) (hy : evenOffset 1 3 < y) :
    Fits [some x, none, some y] := by
  constructor
  · intro i z hz hnone
    match i with
    | 0 =>
        cases hz
        exact hx
    | 1 => cases hz
    | 2 => cases hnone
    | _ + 3 => cases hz
  · intro i z hnone hz
    match i with
    | 0 => cases hz
    | 1 =>
        cases hz
        exact hy
    | 2 => cases hnone
    | _ + 3 => cases hz

/-- Of three stops with one or two offsets, an offset left of the middle leaves room for the second
stop, and one right of it does not. -/
theorem parse_of_writes_threeStops :
    (∃ g, parse "radial-gradient( Circle , rgb(255, 0, 0) 25% , blue,\twhite 0.75 )".toList =
      .ok g ∧ (g.stops.map ColorStop.offset).Pairwise (· < ·)) ∧
    parse "linear-gradient(0deg, red 0.9, blue, green)".toList = .error .stopOrder := by
  have valid (text : String) (h : (Color.parse text.toList >>= Color.check) = .ok ()) :
      ∃ c, Color.parse text.toList = .ok c ∧ c.check = .ok () := bind_eq_ok_iff.mp h
  have ⟨blue, hblue, blueValid⟩ := valid " blue" (by decide +kernel)
  constructor
  · have ⟨red, hred, redValid⟩ := valid " rgb(255, 0, 0)" (by decide +kernel)
    have ⟨white, hwhite, whiteValid⟩ := valid "\twhite" (by decide +kernel)
    obtain ⟨x, y, hx, hy, xy, xFits, yFits, xUnit, yUnit⟩ : ∃ x y, readOffset "25%".toList = .ok x ∧
        readOffset "0.75".toList = .ok y ∧ x < y ∧ x < evenOffset 1 3 ∧ evenOffset 1 3 < y ∧
        Color.inUnit x = true ∧ Color.inUnit y = true :=
      ⟨_, _, rfl, rfl, by decide +kernel, by decide +kernel, by decide +kernel, by decide +kernel,
        by decide +kernel⟩
    have hblank : ∀ c ∈ [' '], isBlank c = true := List.forall_mem_singleton.mpr (by decide)
    have written : List.Forall₂ WritesStop [(red, some x), (blue, none), (white, some y)]
        [" rgb(255, 0, 0) 25% ".toList, " blue".toList, "\twhite 0.75 ".toList] :=
      .cons (@WritesStop.placed _ _ " rgb(255, 0, 0)".toList [' '] "25%".toList [' '] hred (by simp)
          hblank (by decide) hx hblank)
        (.cons (.bare hblue)
          (.cons (@WritesStop.placed _ _ "\twhite".toList [' '] "0.75".toList [' '] hwhite (by simp)
            hblank (by decide) hy hblank) .nil))
    have ⟨accepted, _⟩ := parse_of_writes (@WritesHead.radial " Circle ".toList .circle rfl) written
      (by simp [minStops]) (by simp [maxStops]) (by simp [redValid, blueValid, whiteValid])
      (by simpa using xy) (by simp [xUnit, yUnit])
    have ⟨hparse, hascending⟩ := accepted (fits_around xFits yFits)
    exact ⟨_, hparse, hascending⟩
  · have ⟨red, hred, redValid⟩ := valid " red" (by decide +kernel)
    have ⟨green, hgreen, greenValid⟩ := valid " green" (by decide +kernel)
    obtain ⟨x, hx, xMisfits, xUnit⟩ : ∃ x, readOffset "0.9".toList = .ok x ∧ ¬ x < evenOffset 1 3 ∧
        Color.inUnit x = true := ⟨_, rfl, by decide +kernel, by decide +kernel⟩
    obtain ⟨angle, hangle, number⟩ : ∃ a, readAngle "0deg".toList = .ok a ∧ a.isNaN = false :=
      ⟨_, rfl, by decide +kernel⟩
    have written : List.Forall₂ WritesStop [(red, some x), (blue, none), (green, none)]
        [" red 0.9".toList, " blue".toList, " green".toList] :=
      .cons (@WritesStop.placed _ _ " red".toList [' '] "0.9".toList [] hred (by simp)
        (List.forall_mem_singleton.mpr (by decide)) (by decide) hx (List.forall_mem_nil _))
        (.cons (.bare hblue) (.cons (.bare hgreen) .nil))
    have ⟨_, refused⟩ :=
      parse_of_writes (WritesHead.linear hangle number) written (by simp [minStops])
        (by simp [maxStops]) (by simp [redValid, blueValid, greenValid]) (by simp)
        (by simp [xUnit])
    exact refused fun fits => xMisfits (fits.before 0 x rfl rfl)

end Gradient
end UiMarkup
