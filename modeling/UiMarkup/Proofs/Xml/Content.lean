import UiMarkup.Proofs.Xml.Doctype
import UiMarkup.Proofs.Xml.Insets

/-!
What content is made of: tags, gaps between them, and the texts of entities, which stand
at no place of their own.
-/

namespace UiMarkup.Xml

/-- From some characters to others, bytes of a kind are passed, wherever the characters stand. -/
def Passes (o : Origin) (kind : List UInt8 → Prop) (cs rest : List Cell) : Prop :=
  ∀ offset bytes, Spells o.ending o.size offset cs bytes →
    Consumes o.ending o.size kind offset bytes rest

/-- Content goes on: it is that of an entity, or elements have begun and not ended. -/
def Origin.IsInside (o : Origin) (opened : List String) : Prop := o.reference.isSome ∨ opened ≠ []

/-- The characters are content with some events, down to the rest. Entities count only
where some are declared. -/
inductive ReadsAs (declares : Prop) :
    Origin → List String → List Cell → List Event → List Cell → Prop
  | ends {o : Origin} {cs : List Cell} (entity : o.reference.isSome) :
      ReadsAs declares o [] cs [] []
  | gap {o : Origin} {opened : List String} {cs between rest : List Cell} {events : List Event}
      (passes : Passes o Gap cs between) (more : ReadsAs declares o opened between events rest) :
      ReadsAs declares o opened cs events rest
  | startTag {o : Origin} {opened : List String} {c : Cell} {cs between rest : List Cell}
      {events : List Event} {name : String} {attributes : List (String × String)}
      (passes : Passes o (IsStartTag false) (c :: cs) between)
      (more : ReadsAs declares o (name :: opened) between events rest) :
      ReadsAs declares o opened (c :: cs) (.start name attributes (o.place c.offset) :: events) rest
  | emptyTag {o : Origin} {opened : List String} {c : Cell} {cs between rest : List Cell}
      {events : List Event} {name : String} {attributes : List (String × String)}
      (passes : Passes o (IsStartTag true) (c :: cs) between)
      (more : ReadsAs declares o opened between events rest) :
      ReadsAs declares o opened (c :: cs)
        (.start name attributes (o.place c.offset) ::
          .finish (o.place (nextOffset o.size o.ending between)) :: events)
        rest
  | endTag {o : Origin} {opened : List String} {c : Cell} {cs between rest : List Cell}
      {events : List Event} {name : String} (passes : Passes o IsEndTag (c :: cs) between)
      (inside : o.IsInside opened) (more : ReadsAs declares o opened between events rest) :
      ReadsAs declares o (name :: opened) (c :: cs) (.finish (o.place c.offset) :: events) rest
  | lastTag {o : Origin} {c : Cell} {cs rest : List Cell} {name : String}
      (passes : Passes o IsEndTag (c :: cs) rest) :
      ReadsAs declares o [name] (c :: cs) [.finish (o.place c.offset)] rest
  | entity {o inner : Origin} {opened : List String} {c : Cell} {cs text left rest : List Cell}
      {events events' : List Event} (declared : declares) (sign : c.char = '&')
      (place : inner.reference = some (o.place c.offset))
      (inside : ReadsAs declares inner [] text events left)
      (more : ReadsAs declares o opened (c :: cs) events' rest) :
      ReadsAs declares o opened (c :: cs) (events ++ events') rest

section

variable {o : Origin} {opened : List String} {c : Cell} {cs between rest : List Cell}

theorem Origin.of_finish {offset : Nat} (h : o.finish opened offset = .ok ()) :
    o.reference.isSome ∧ opened = [] := by
  rw [finish] at h
  split at h
  · cases h
  · next hreference =>
    split at h
    · next hopened =>
        exact ⟨by simpa [Option.isSome_iff_ne_none] using hreference, List.isEmpty_iff.mp hopened⟩
    · cases h

theorem Origin.of_runOut (h : o.runOut opened = .ok ()) : o.reference.isSome ∧ opened = [] := by
  rw [runOut] at h
  split at h
  · exact of_finish h
  all_goals cases h

theorem Origin.isInside_iff :
    o.IsInside opened ↔ ¬ (opened.isEmpty && o.reference.isNone) = true := by
  rw [IsInside, Bool.and_eq_true, not_and_or, List.isEmpty_iff, Option.isNone_iff_eq_none,
    Option.isSome_iff_ne_none, or_comm]

/-- Text is a gap up to the next angle bracket. -/
theorem passes_char (hc : c.char ≠ '<') : Passes o Gap (c :: cs) cs := fun _ _ h =>
  h.consumes.mono fun used hused =>
    List.append_nil used ▸ .text (fun hmem => hc ((hused.mem_iff (by decide)).mp hmem)) .nil

theorem passes_reference {r : Taken Reference cs.length} (hc : c.char = '&')
    (hr : reference o.ending cs = .ok r) : Passes o Gap (c :: cs) r.rest := by
  intro offset bytes h
  refine (h.consumes_sign hc (by decide)).append (consumes_reference hr) ?_
  rintro _ used rfl hused
  refine List.append_nil ([byteOf '&'] ++ used) ▸ .text (fun hmem => ?_) .nil
  rw [List.mem_append, List.mem_singleton] at hmem
  exact hmem.elim (by decide) hused.no_angle

theorem passes_startTag {tag : Taken StartTag cs.length} (hc : c.char = '<')
    (ht : startTag o.ending cs = .ok tag) :
    Passes o (IsStartTag tag.value.isEmpty) (c :: cs) tag.rest :=
  fun _ _ h => consumes_startTag ht hc h

theorem passes_inset {n : Cell} {i : Taken Inset cs.length} {v : Inset} (hc : c.char = '<')
    (hi : inset o.ending o.size n cs = .ok i) (hvalue : i.value = v) :
    Passes o (insetKind v) (c :: n :: cs) i.rest :=
  hvalue ▸ fun _ _ h => consumes_inset hi hc h

theorem passes_gap_of_inset (h : Passes o IsInset cs between) : Passes o Gap cs between :=
  fun _ _ hspells => (h _ _ hspells).mono fun used hused => List.append_nil used ▸ .inset hused .nil

end

/-- Only what is declared has a text. -/
theorem entities_ne_nil_of_contentText {d : Doctype} {opened : List String} {name : String}
    {text : List Char} (h : contentText d opened name = .ok (some text)) : d.entities ≠ [] := by
  intro hnone
  have hget : d.entities.get? name = none := by rw [hnone]; rfl
  rw [contentText, entityText, hget] at h
  cases hcomplete : d.isComplete <;> rw [hcomplete] at h <;> cases h

/-- What is given for the text of an entity reads it as content. -/
def EntersBy (declares : Prop) (enter : Option (Origin → List Cell → Except Error (List Event))) :
    Prop :=
  ∀ read ∈ enter, ∀ inner text events, read inner text = .ok events → inner.reference.isSome →
    ∃ left, ReadsAs declares inner [] text events left

theorem readsAs_of_contentBy {declares : Prop} {d : Doctype} (declared : d.entities ≠ [] → declares)
    {enter : Option (Origin → List Cell → Except Error (List Event))}
    (enters : EntersBy declares enter) {o : Origin} {opened : List String} {cs rest : List Cell}
    {events : List Event} (h : contentBy d enter o opened cs = .ok (events, rest))
    (inside : o.IsInside opened) : ReadsAs declares o opened cs events rest := by
  fun_induction contentBy d enter o opened cs generalizing events rest with
  | case1 opened =>
      obtain ⟨_, hend, h⟩ := bind_eq_ok_iff.mp h
      cases h
      obtain ⟨hentity, rfl⟩ := Origin.of_runOut hend
      exact .ends hentity
  | case4 opened c hc n ns hn tag htag ihsame ihinner =>
      have hpasses := passes_startTag hc htag
      obtain ⟨attributes, -, h⟩ := bind_eq_ok_iff.mp h
      split at h
      · next hempty =>
        rw [hempty] at hpasses
        dsimp only at h
        rw [if_neg (Origin.isInside_iff.mp inside)] at h
        obtain ⟨⟨more, rest⟩, hmore, h⟩ := bind_eq_ok_iff.mp h
        cases h
        exact .emptyTag hpasses (ihsame hmore inside)
      · next hempty =>
        rw [Bool.not_eq_true] at hempty
        rw [hempty] at hpasses
        obtain ⟨⟨more, rest⟩, hmore, h⟩ := bind_eq_ok_iff.mp h
        cases h
        exact .startTag hpasses (ihinner hmore (.inr (List.cons_ne_nil _ _)))
  | case6 opened c hc n ns hn i hi hvalue ih =>
      exact .gap (passes_gap_of_inset (passes_inset hc hi hvalue)) (ih h inside)
  | case9 opened c hc n ns hn i hi hvalue after hafter ih =>
      refine .gap (passes_gap_of_inset fun _ _ hspells => ?_) (ih h inside)
      refine (passes_inset hc hi hvalue _ _ hspells).append (consumes_cdataRest hafter) ?_
      rintro _ used rfl hused
      exact .cdata hused
  | case12 c hc n ns hn i hi name offset current outer hvalue hname hlast =>
      cases h
      rw [Bool.and_eq_true, List.isEmpty_iff, Option.isNone_iff_eq_none] at hlast
      obtain ⟨rfl, hdocument⟩ := hlast
      have hplace : o.place c.offset = c.offset := by rw [Origin.place, hdocument]; rfl
      exact hplace ▸ .lastTag (passes_inset hc hi hvalue)
  | case13 c hc n ns hn i hi name offset current outer hvalue hname hlast ih =>
      obtain ⟨⟨more, rest⟩, hmore, h⟩ := bind_eq_ok_iff.mp h
      cases h
      have hinside := Origin.isInside_iff.mpr hlast
      exact .endTag (passes_inset hc hi hvalue) hinside (ih hmore hinside)
  | case16 opened c cs _ hc r hr _ _ ih | case17 opened c cs _ hc r hr _ _ _ ih
  | case19 opened c cs _ hc r hr _ _ _ _ ih => exact .gap (passes_reference hc hr) (ih h inside)
  | case21 opened c cs _ hc r hr =>
      rename_i read hread htext _ ih
      subst hread
      obtain ⟨events', hinner, h⟩ := bind_eq_ok_iff.mp h
      obtain ⟨⟨more, rest⟩, hmore, h⟩ := bind_eq_ok_iff.mp h
      cases h
      obtain ⟨left, hinside⟩ := enters read rfl _ _ _ hinner rfl
      have hrest := ReadsAs.gap (passes_reference hc hr) (ih hmore inside)
      exact .entity (declared (entities_ne_nil_of_contentText htext)) hc rfl hinside hrest
  | case23 opened c cs =>
      obtain ⟨_, hend, h⟩ := bind_eq_ok_iff.mp h
      cases h
      obtain ⟨hentity, rfl⟩ := Origin.of_finish hend
      exact .ends hentity
  | case24 opened c hc _ cs _ _ ih => exact .gap (passes_char hc) (ih h inside)
  | _ => cases h

theorem entersBy_entityContent {declares : Prop} {d : Doctype}
    (declared : d.entities ≠ [] → declares) (fuel : Nat) :
    EntersBy declares (entityContent d fuel) := by
  induction fuel with
  | zero => exact fun _ hread => nomatch hread
  | succ fuel ih =>
      intro read hread inner text events h hreference
      obtain rfl := Option.some.inj hread
      obtain ⟨⟨_, left⟩, hcontent, rfl⟩ := map_eq_ok_iff.mp h
      exact ⟨left, readsAs_of_contentBy declared ih hcontent (.inl hreference)⟩

theorem readsAs_of_content {declares : Prop} {d : Doctype} (declared : d.entities ≠ [] → declares)
    {fuel : Nat} {o : Origin} {opened : List String} {cs rest : List Cell} {events : List Event}
    (h : content d fuel o opened cs = .ok (events, rest)) (inside : o.IsInside opened) :
    ReadsAs declares o opened cs events rest :=
  readsAs_of_contentBy declared (entersBy_entityContent declared fuel) h inside

open PrologToken (BeginsTag)

/-- The characters are the root element with some events, down to the rest. -/
inductive RootReadsAs (declares : Prop) (o : Origin) : List Cell → List Event → List Cell → Prop
  | pair {c : Cell} {cs between rest : List Cell} {events : List Event} {name : String}
      {attributes : List (String × String)} (passes : Passes o (IsStartTag false) (c :: cs) between)
      (more : ReadsAs declares o [name] between events rest) :
      RootReadsAs declares o (c :: cs) (.start name attributes (o.place c.offset) :: events) rest
  | empty {c : Cell} {cs rest : List Cell} {name : String} {attributes : List (String × String)}
      (passes : Passes o (IsStartTag true) (c :: cs) rest) :
      RootReadsAs declares o (c :: cs)
        [.start name attributes (o.place c.offset),
          .finish (o.place (nextOffset o.size o.ending rest))] rest

/-- No inset begins with a character beyond ASCII. -/
theorem inset_beyond (e : Ending) (size : Nat) {c : Cell} (cs : List Cell)
    (large : 0x80 ≤ c.char.toNat) : inset e size c cs = .error (.invalid c.offset) := by
  have hne (sign : Char) (hsign : sign.toNat < 0x80) : c.char ≠ sign :=
    fun hc => Nat.not_lt.mpr large (hc ▸ hsign)
  rw [inset.eq_def, if_neg (hne '/' (by decide)), if_neg (hne '?' (by decide)),
    if_neg (hne '!' (by decide))]

theorem rootReadsAs_of_content {declares : Prop} {d : Doctype}
    (declared : d.entities ≠ [] → declares) {fuel : Nat} {o : Origin} {cs rest : List Cell}
    {events : List Event} (h : content d fuel o [] cs = .ok (events, rest))
    (document : o.reference = none) (begins : BeginsTag cs)
    (beyond : ∀ c ∈ cs, c.far → 0x80 ≤ c.char.toNat) : RootReadsAs declares o cs events rest := by
  obtain ⟨c, cs, rfl, hc, hstarts⟩ := begins
  rw [content, contentBy.eq_def] at h
  dsimp only at h
  rw [if_pos hc] at h
  split at h
  · cases h
  · next n ns =>
    split at h
    · split at h
      · cases h
      · next tag htag =>
        have hpasses := passes_startTag hc htag
        obtain ⟨attributes, -, h⟩ := bind_eq_ok_iff.mp h
        split at h
        · next hempty =>
          rw [hempty] at hpasses
          rw [document] at h
          cases h
          exact .empty hpasses
        · next hempty =>
          rw [Bool.not_eq_true] at hempty
          rw [hempty] at hpasses
          obtain ⟨⟨more, rest⟩, hmore, h⟩ := bind_eq_ok_iff.mp h
          cases h
          exact .pair hpasses (readsAs_of_content declared hmore (.inr (List.cons_ne_nil _ _)))
    · next hname =>
      have hfar := (hstarts n rfl).resolve_left hname
      rw [inset_beyond _ _ _ (beyond n (by simp) hfar)] at h
      cases h

end UiMarkup.Xml
