import UiMarkup.Markup.Element
import UiMarkup.Proofs.Xml.Content

/-!
Where elements are written. The span of an element with a start tag and an end tag is exactly its
text. That of an element with one tag alone begins with the tag, but ends with what would be the
tag's end if a tag began behind it. An element out of an entity has the place of the reference.
-/

namespace UiMarkup

open Xml

namespace Element

/-- The span of the element, and of all inside it, is that of a tag at a place. -/
def StandsFor (source : SourceMap) (place : Nat) (e : Element) : Prop :=
  ∀ d ∈ e.walk, d.span = source.span place (Tag.stop source.bytes place)

mutual

/-- The bytes are those of the element, at the place of the first one. Elements come out of entities
only where entities are declared. -/
inductive WrittenAt (source : SourceMap) (declares : Prop) : Element → Nat → List UInt8 → Prop
  | pair {tag : String} {attributes : List Attribute} {children : List Element} {offset : Nat}
      {opening inner closing : List UInt8} (opens : IsStartTag false opening)
      (content : ContentAt source declares children (offset + opening.length) inner)
      (closes : IsEndTag closing) :
      WrittenAt source declares
        ⟨tag, attributes, children,
          source.span offset (offset + (opening ++ (inner ++ closing)).length : Nat)⟩ offset
        (opening ++ (inner ++ closing))
  | empty {tag : String} {attributes : List Attribute} {offset : Nat} {text : List UInt8}
      (opens : IsStartTag true text) :
      WrittenAt source declares
        ⟨tag, attributes, [], source.span offset (Tag.stop source.bytes (offset + text.length))⟩
        offset text

/-- The bytes are those of some elements, one after the other, and of what
can stand between tags. -/
inductive ContentAt (source : SourceMap) (declares : Prop) : List Element → Nat → List UInt8 → Prop
  | nil {offset : Nat} {text : List UInt8} (gap : Gap text) :
      ContentAt source declares [] offset text
  | element {e : Element} {es : List Element} {offset : Nat} {gap own rest : List UInt8}
      (between : Gap gap) (written : WrittenAt source declares e (offset + gap.length) own)
      (more : ContentAt source declares es (offset + gap.length + own.length) rest) :
      ContentAt source declares (e :: es) offset (gap ++ (own ++ rest))
  | entity {e : Element} {es : List Element} {offset : Nat} {gap rest : List UInt8}
      (declared : declares) (between : Gap gap) (stands : e.StandsFor source (offset + gap.length))
      (more : ContentAt source declares es (offset + gap.length) (byteOf '&' :: rest)) :
      ContentAt source declares (e :: es) offset (gap ++ byteOf '&' :: rest)

end

section

variable {source : SourceMap} {declares : Prop} {e : Element} {es : List Element} {offset : Nat}

/-- The text of an element is between angle brackets. -/
theorem WrittenAt.bracketed {text : List UInt8} (h : e.WrittenAt source declares offset text) :
    ∃ inner, text = byteOf '<' :: (inner ++ [byteOf '>']) := by
  cases h with
  | @pair _ _ _ _ _ inner _ opens content closes =>
      obtain @⟨name, body, -, -, -⟩ := opens
      obtain @⟨body', -⟩ := closes
      exact ⟨name ++ body ++ tagClosing false ++ inner ++ byteOf '<' :: byteOf '/' :: body',
        by simp⟩
  | empty opens =>
      obtain @⟨name, body, -, -, -⟩ := opens
      exact ⟨name ++ body ++ [byteOf '/'], by simp [tagClosing]⟩

theorem ContentAt.behind {gap text : List UInt8}
    (h : ContentAt source declares es (offset + gap.length) text)
    (hgap : Gap gap) : ContentAt source declares es offset (gap ++ text) := by
  cases h with
  | nil rest => exact .nil (hgap.append rest)
  | element between written more =>
      rw [Nat.add_assoc offset, ← List.length_append] at written more
      exact List.append_assoc gap _ _ ▸ .element (hgap.append between) written more
  | entity declared between stands more =>
      rw [Nat.add_assoc offset, ← List.length_append] at stands more
      exact List.append_assoc gap _ _ ▸ .entity declared (hgap.append between) stands more

theorem ContentAt.element_here {own rest : List UInt8}
    (h : ContentAt source declares es (offset + own.length) rest)
    (written : e.WrittenAt source declares offset own) :
    ContentAt source declares (e :: es) offset (own ++ rest) := by
  rw [← List.nil_append (own ++ rest)]
  exact .element .nil written h

theorem ContentAt.entity_here {rest : List UInt8}
    (h : ContentAt source declares es offset (byteOf '&' :: rest))
    (declared : declares) (stands : e.StandsFor source offset) :
    ContentAt source declares (e :: es) offset (byteOf '&' :: rest) := by
  rw [← List.nil_append (byteOf '&' :: rest)]
  exact .entity declared .nil stands h

theorem ContentAt.entities {es' : List Element} {text : List UInt8}
    (h : ContentAt source declares es' offset (byteOf '&' :: text)) (declared : declares)
    (hstands : ∀ e ∈ es, e.StandsFor source offset) :
    ContentAt source declares (es ++ es') offset (byteOf '&' :: text) := by
  induction es with
  | nil => exact h
  | cons e es ih =>
      obtain ⟨he, hes⟩ := List.forall_mem_cons.mp hstands
      exact (ih hes).entity_here declared he

end

end Element

namespace Markup

open Element

variable {source : SourceMap} {declares : Prop}

/-! ### Building -/

/-- Events that add elements to the one that has begun last. -/
def Builds (source : SourceMap) (events : List Event) (es : List Element) : Prop :=
  ∀ s opened more, build? source (s :: opened) (events ++ more) =
    build? source ({ s with children := es.reverse ++ s.children } :: opened) more

theorem Builds.nil : Builds source [] [] := fun _ _ _ => rfl

theorem Builds.append {a b : List Event} {es fs : List Element} (ha : Builds source a es)
    (hb : Builds source b fs) : Builds source (a ++ b) (es ++ fs) := by
  intro s opened more
  rw [List.append_assoc, ha, hb, List.reverse_append, List.append_assoc]

/-- The element that some events between its first and its last one make up. -/
def elementOf (source : SourceMap) (name : String) (attributes : List (String × String))
    (first last : Nat) (children : List Element) : Element :=
  ⟨name, placeAttributes source first attributes, children,
    source.span first (Tag.stop source.bytes last)⟩

/-- Events that make up an element, from its first tag to its last one. -/
inductive Makes (source : SourceMap) : List Event → Element → Prop
  | intro {events : List Event} {es : List Element} (builds : Builds source events es)
      (name : String) (attributes : List (String × String)) (first last : Nat) :
      Makes source (.start name attributes first :: (events ++ [.finish last]))
        (elementOf source name attributes first last es)

theorem Makes.builds {events : List Event} {e : Element} (h : Makes source events e) :
    Builds source events [e] := by
  intro s opened more
  cases h with
  | intro builds =>
      rw [List.cons_append, build?, List.append_assoc, builds, List.cons_append, build?]
      simp [close, elementOf]

/-- The events of the root leave nothing open. -/
theorem Makes.root {events : List Event} {e : Element} (h : Makes source events e) :
    build? source [] events = some e := by
  cases h with
  | intro builds =>
      rw [build?, builds, build?]
      simp [close, elementOf]

/-! ### Entities -/

/-- Events at one place: elements, and so many ends of elements that have begun before, each
behind its last children. -/
inductive Inserted (source : SourceMap) (place : Nat) : Nat → List Event → Prop
  | content {events : List Event} {es : List Element} (builds : Builds source events es)
      (stands : ∀ e ∈ es, e.StandsFor source place) : Inserted source place 0 events
  | level {depth : Nat} {events more : List Event} {es : List Element}
      (builds : Builds source events es) (stands : ∀ e ∈ es, e.StandsFor source place)
      (rest : Inserted source place depth more) :
      Inserted source place (depth + 1) (events ++ .finish place :: more)

theorem mem_walkAll {d : Element} {es : List Element} : d ∈ walkAll es ↔ ∃ e ∈ es, d ∈ e.walk := by
  induction es with
  | nil => simp [walkAll]
  | cons e es ih => simp [walkAll, ih]

theorem standsFor_elementOf {place : Nat} {es : List Element}
    (h : ∀ e ∈ es, e.StandsFor source place) (name : String) (attributes : List (String × String)) :
    (elementOf source name attributes place place es).StandsFor source place := by
  intro d hd
  rw [elementOf, walk, List.mem_cons, mem_walkAll] at hd
  obtain rfl | ⟨e, he, hd⟩ := hd
  · rfl
  · exact h e he d hd

/-- Elements in front of all others. -/
theorem Inserted.behind {place depth : Nat} {events more : List Event} {es : List Element}
    (h : Inserted source place depth more) (builds : Builds source events es)
    (stands : ∀ e ∈ es, e.StandsFor source place) :
    Inserted source place depth (events ++ more) := by
  cases h with
  | content builds' stands' =>
      exact .content (builds.append builds') (List.forall_mem_append.mpr ⟨stands, stands'⟩)
  | level builds' stands' rest =>
      rw [← List.append_assoc]
      exact .level (builds.append builds') (List.forall_mem_append.mpr ⟨stands, stands'⟩) rest

/-- A start tag makes an element of the innermost level. -/
theorem Inserted.start {place depth : Nat} {events : List Event}
    (h : Inserted source place (depth + 1) events) (name : String)
    (attributes : List (String × String)) :
    Inserted source place depth (.start name attributes place :: events) := by
  cases h with
  | level builds stands rest =>
      have helement := standsFor_elementOf stands name attributes
      have hmore := rest.behind (Makes.intro builds name attributes place place).builds
        (by simpa using helement)
      simpa using hmore

theorem place_of_reference {o : Origin} {place : Nat} (h : o.reference = some place)
    (offset : Nat) : o.place offset = place := by
  rw [Origin.place, h]
  rfl

theorem inserted_of_readsAs {o : Origin} {opened : List String} {cs rest : List Cell}
    {events : List Event} (h : ReadsAs declares o opened cs events rest) {place : Nat}
    (hplace : o.reference = some place) : Inserted source place opened.length events := by
  induction h with
  | ends => exact .content .nil (by simp)
  | gap _ _ ih => exact ih hplace
  | startTag _ _ ih =>
      rw [place_of_reference hplace]
      exact (ih hplace).start ..
  | @emptyTag _ _ _ _ _ _ _ name attributes _ _ ih =>
      rw [place_of_reference hplace, place_of_reference hplace]
      have helement : (elementOf source name attributes place place []).StandsFor source place :=
        standsFor_elementOf (by simp) name attributes
      exact (ih hplace).behind (Makes.intro .nil name attributes place place).builds
        (by simpa using helement)
  | endTag _ _ _ ih =>
      rw [place_of_reference hplace]
      exact .level .nil (by simp) (ih hplace)
  | lastTag =>
      rw [place_of_reference hplace]
      exact .level .nil (by simp) (.content .nil (by simp))
  | entity _ _ hinner _ _ ihinner ih =>
      rw [place_of_reference hplace] at hinner
      cases ihinner hinner with
      | content builds stands => exact (ih hplace).behind builds stands

/-! ### The document -/

/-- Events in the bytes from an offset on: so many elements that have begun before are ended, each
behind its last children. -/
inductive Levels (source : SourceMap) (declares : Prop) : Nat → Nat → List UInt8 → List Event → Prop
  | done {offset : Nat} {bytes : List UInt8} : Levels source declares 0 offset bytes []
  | level {depth offset : Nat} {inner closing after : List UInt8} {events more : List Event}
      {es : List Element} (builds : Builds source events es)
      (content : ContentAt source declares es offset inner) (closes : IsEndTag closing)
      (stop : Tag.stop source.bytes (offset + inner.length) = offset + (inner ++ closing).length)
      (rest : Levels source declares depth (offset + (inner ++ closing).length) after more) :
      Levels source declares (depth + 1) offset (inner ++ (closing ++ after))
        (events ++ .finish (offset + inner.length) :: more)

section

variable {depth offset : Nat} {bytes : List UInt8} {events more : List Event}

/-- Bytes in front that only add to the content of the innermost level. -/
theorem Levels.behind {own : List UInt8} {es : List Element}
    (h : Levels source declares (depth + 1) (offset + own.length) bytes more)
    (builds : Builds source events es)
    (adds : ∀ {es' inner}, ContentAt source declares es' (offset + own.length) inner →
      ContentAt source declares (es ++ es') offset (own ++ inner)) :
    Levels source declares (depth + 1) offset (own ++ bytes) (events ++ more) := by
  cases h with
  | @level _ _ inner closing after events' more' es' builds' content closes stop rest =>
      have hinner : offset + own.length + inner.length = offset + (own ++ inner).length := by
        rw [List.length_append, Nat.add_assoc]
      have hall : offset + own.length + (inner ++ closing).length =
          offset + (own ++ inner ++ closing).length := by
        simp only [List.length_append, Nat.add_assoc]
      rw [hall] at stop rest
      rw [hinner] at stop ⊢
      rw [← List.append_assoc own, ← List.append_assoc events]
      exact .level (builds.append builds') (adds content) closes stop rest

theorem Levels.gap {own : List UInt8}
    (h : Levels source declares (depth + 1) (offset + own.length) bytes events)
    (hgap : Gap own) : Levels source declares (depth + 1) offset (own ++ bytes) events :=
  h.behind .nil fun content => content.behind hgap

theorem Levels.element {own : List UInt8} {e : Element}
    (h : Levels source declares (depth + 1) (offset + own.length) bytes more)
    (builds : Builds source events [e]) (written : e.WrittenAt source declares offset own) :
    Levels source declares (depth + 1) offset (own ++ bytes) (events ++ more) :=
  h.behind builds fun content => content.element_here written

theorem Levels.entity {es : List Element}
    (h : Levels source declares (depth + 1) offset (byteOf '&' :: bytes) more)
    (declared : declares) (builds : Builds source events es)
    (stands : ∀ e ∈ es, e.StandsFor source offset) :
    Levels source declares (depth + 1) offset (byteOf '&' :: bytes) (events ++ more) := by
  generalize hbytes : byteOf '&' :: bytes = all at h ⊢
  cases h with
  | @level _ _ inner closing after _ _ _ builds' content closes stop rest =>
      rw [← List.append_assoc events]
      refine .level (builds.append builds') ?_ closes stop rest
      cases inner with
      | nil =>
          -- an end tag has another first sign
          cases closes
          cases hbytes
      | cons b inner =>
          obtain ⟨rfl, -⟩ := List.cons.inj hbytes
          exact content.entities declared stands

/-- A start tag begins an element that ends where the innermost level does. -/
theorem Levels.split {opening : List UInt8}
    (h : Levels source declares (depth + 1) (offset + opening.length) bytes events)
    (opens : IsStartTag false opening) (name : String) (attributes : List (String × String)) :
    ∃ own after inside more e, opening ++ bytes = own ++ after ∧
      .start name attributes offset :: events = inside ++ more ∧ Makes source inside e ∧
      e.WrittenAt source declares offset own ∧
      Levels source declares depth (offset + own.length) after more := by
  cases h with
  | @level _ _ inner closing after events more es builds content closes stop rest =>
      have hall : offset + opening.length + (inner ++ closing).length =
          offset + (opening ++ (inner ++ closing)).length := by
        simp only [List.length_append, Nat.add_assoc]
      rw [hall] at stop rest
      have hwritten :
          (elementOf source name attributes offset (offset + opening.length + inner.length)
            es).WrittenAt
          source declares offset (opening ++ (inner ++ closing)) := by
        rw [elementOf, stop]
        exact .pair opens content closes
      exact ⟨_, after, _, more, _, by simp, by simp, .intro builds .., hwritten, rest⟩

theorem Levels.start {opening : List UInt8}
    (h : Levels source declares (depth + 2) (offset + opening.length) bytes events)
    (opens : IsStartTag false opening) (name : String) (attributes : List (String × String)) :
    Levels source declares (depth + 1) offset (opening ++ bytes)
      (.start name attributes offset :: events) := by
  obtain ⟨own, after, inside, more, e, hbytes, hevents, makes, written, rest⟩ :=
    h.split opens name attributes
  rw [hbytes, hevents]
  exact rest.element makes.builds written

theorem Levels.finish {closing after : List UInt8}
    (h : Levels source declares depth (offset + closing.length) after events)
    (closes : IsEndTag closing) (hbytes : source.bytes.drop offset = closing ++ after) :
    Levels source declares (depth + 1) offset (closing ++ after) (.finish offset :: events) := by
  have hstop : Tag.stop source.bytes offset = offset + closing.length := by
    rw [Tag.stop, hbytes, closes.length_append]
  change Levels source declares (depth + 1) offset ([] ++ (closing ++ after))
    ([] ++ .finish (offset + ([] : List UInt8).length) :: events)
  exact .level .nil (.nil .nil) closes hstop h

end

/-- The characters are those of the document itself, from an offset on. -/
structure StandsAt (source : SourceMap) (o : Origin) (cs : List Cell) (offset : Nat) : Prop where
  document : o.reference = none
  spells : Spells o.ending o.size offset cs (source.bytes.drop offset)

namespace StandsAt

variable {o : Origin} {cs between : List Cell} {offset : Nat}

theorem passes {kind : List UInt8 → Prop} (h : StandsAt source o cs offset)
    (hpasses : Passes o kind cs between) :
    ∃ used, kind used ∧ source.bytes.drop offset =
      used ++ source.bytes.drop (offset + used.length) ∧
      StandsAt source o between (offset + used.length) := by
  obtain ⟨used, more, hbytes, hkind, hspells⟩ := hpasses _ _ h.spells
  have hmore : source.bytes.drop (offset + used.length) = more := by
    rw [← List.drop_drop, hbytes, List.drop_left]
  exact ⟨used, hkind, hmore.symm ▸ hbytes, h.document, hmore.symm ▸ hspells⟩

/-- The first character is at the offset. -/
theorem place_eq {c : Cell} (h : StandsAt source o (c :: cs) offset) :
    o.place c.offset = offset := by
  rw [Origin.place, h.document]
  exact h.spells.nextOffset_eq

theorem place_nextOffset (h : StandsAt source o cs offset) :
    o.place (nextOffset o.size o.ending cs) = offset := by
  rw [Origin.place, h.document]
  exact h.spells.nextOffset_eq

end StandsAt

theorem levels_of_readsAs {o : Origin} {opened : List String} {cs rest : List Cell}
    {events : List Event} (h : ReadsAs declares o opened cs events rest) {offset depth : Nat}
    (hstands : StandsAt source o cs offset) (hdepth : opened.length = depth + 1) :
    Levels source declares (depth + 1) offset (source.bytes.drop offset) events := by
  induction h generalizing offset depth with
  | ends => cases hdepth
  | gap passes _ ih =>
      obtain ⟨used, hgap, hbytes, hstands⟩ := hstands.passes passes
      rw [hbytes]
      exact (ih hstands hdepth).gap hgap
  | startTag passes _ ih =>
      rw [hstands.place_eq]
      obtain ⟨used, hopens, hbytes, hstands⟩ := hstands.passes passes
      rw [hbytes]
      exact (ih hstands (congrArg (· + 1) hdepth)).start hopens ..
  | emptyTag passes _ ih =>
      rw [hstands.place_eq]
      obtain ⟨used, hopens, hbytes, hstands⟩ := hstands.passes passes
      rw [hbytes, hstands.place_nextOffset]
      exact (ih hstands hdepth).element (Makes.intro .nil _ _ _ _).builds (.empty hopens)
  | @endTag _ opened _ _ _ _ _ _ passes inside _ ih =>
      have hopened := inside.resolve_left (by simp [hstands.document])
      obtain ⟨depth', hdepth'⟩ :=
        Nat.exists_eq_succ_of_ne_zero (List.length_eq_zero_iff.not.mpr hopened)
      obtain rfl : depth = depth' + 1 := Nat.succ.inj (hdepth.symm.trans (congrArg (· + 1) hdepth'))
      rw [hstands.place_eq]
      obtain ⟨used, hcloses, hbytes, hstands⟩ := hstands.passes passes
      rw [hbytes]
      exact (ih hstands hdepth').finish hcloses hbytes
  | lastTag passes =>
      obtain rfl : depth = 0 := (Nat.succ.inj hdepth).symm
      rw [hstands.place_eq]
      obtain ⟨used, hcloses, hbytes, hstands⟩ := hstands.passes passes
      rw [hbytes]
      exact Levels.done.finish hcloses hbytes
  | entity declared sign hinner hinside _ _ ih =>
      rw [hstands.place_eq] at hinner
      cases inserted_of_readsAs hinside hinner with
      | content builds stands =>
          have hmore := ih hstands hdepth
          obtain ⟨bytes, hbytes⟩ : ∃ bytes, source.bytes.drop offset = byteOf '&' :: bytes := by
            obtain ⟨_, more, hbytes, rfl, -⟩ := hstands.spells.consumes_sign sign (by decide)
            exact ⟨more, hbytes⟩
          rw [hbytes] at hmore ⊢
          exact hmore.entity declared builds stands

/-- What is read as the root is an element. -/
theorem root_of_rootReadsAs {o : Origin} {cs rest : List Cell} {events : List Event}
    (h : RootReadsAs declares o cs events rest) {offset : Nat}
    (hstands : StandsAt source o cs offset) :
    ∃ e text after, source.bytes.drop offset = text ++ after ∧
      e.WrittenAt source declares offset text ∧
      build? source [] events = some e := by
  cases h with
  | @pair _ _ _ _ events name attributes passes more =>
      rw [hstands.place_eq]
      obtain ⟨opening, hopens, hbytes, hstands⟩ := hstands.passes passes
      obtain ⟨own, after, inside, events', e, hown, hevents, makes, written, rest⟩ :=
        (levels_of_readsAs more hstands rfl).split hopens name attributes
      cases rest
      rw [hbytes, hown, hevents, List.append_nil]
      exact ⟨e, own, after, rfl, written, makes.root⟩
  | empty passes =>
      rw [hstands.place_eq]
      obtain ⟨text, hopens, hbytes, hstands⟩ := hstands.passes passes
      rw [hstands.place_nextOffset]
      exact ⟨_, text, _, hbytes, .empty hopens, (Makes.intro .nil _ _ _ _).root⟩

/-! ### Documents -/

/-- A declaration does not change the length of the units. -/
theorem sameUnits_of_declaredEncoding {d : Declaration} {encoding : Encoding}
    (h : Document.declaredEncoding .utf8 d = .ok encoding) : encoding.sameUnits .utf8 := by
  unfold Document.declaredEncoding at h
  split at h
  · cases h
    rfl
  · split at h
    · obtain ⟨hsame, rfl⟩ := ite_error_eq_ok_iff.mp h
      exact hsame
    · split at h
      · cases h
        rfl
      all_goals cases h

theorem malformed_eq_ok_iff {α : Type} {encoding : Encoding} {x : Except Xml.Error α} {a : α} :
    Document.malformed encoding x = .ok a ↔ x = .ok a := mapError_eq_ok_iff

/-- All but an XML declaration is read from the bytes behind it, in some encoding. -/
theorem readBody_of_read {bytes : List UInt8} {document : Document}
    (h : Document.read bytes = .ok document) (narrow : (Document.detect bytes).1 = .utf8) :
    ∃ standalone start, ∃ encoding : Encoding, encoding.sameUnits .utf8 ∧
      Document.readBody standalone (encoding.input start (bytes.drop start)) =
        .ok document.events := by
  rw [Document.read] at h
  generalize Document.detect bytes = detected at h narrow
  obtain ⟨current, start⟩ := detected
  obtain rfl : current = .utf8 := narrow
  cases hfragment : Document.isFragment bytes with
  | true =>
      rw [hfragment] at h
      cases h
  | false =>
      rw [hfragment] at h
      obtain ⟨declared, -, h⟩ := bind_eq_ok_iff.mp h
      cases declared with
      | none =>
          obtain ⟨events, hevents, h⟩ := bind_eq_ok_iff.mp h
          cases h
          exact ⟨false, start, .utf8, rfl, malformed_eq_ok_iff.mp hevents⟩
      | some declared =>
          obtain ⟨d, -, h⟩ := bind_eq_ok_iff.mp h
          obtain ⟨encoding, hencoding, h⟩ := bind_eq_ok_iff.mp h
          obtain ⟨events, hevents, h⟩ := bind_eq_ok_iff.mp h
          cases h
          have hsame := sameUnits_of_declaredEncoding hencoding
          exact ⟨d.standalone, _, encoding, hsame, malformed_eq_ok_iff.mp hevents⟩

theorem toNat_of_mem_doctypeOpen : ∀ sign ∈ doctypeOpen, sign.toNat < 0x80 :=
  forall_mem_of_all (by decide)

theorem root_of_readBody (source : SourceMap) {standalone : Bool} {encoding : Encoding}
    {start : Nat} {events : List Event} (narrow : encoding.sameUnits .utf8)
    (h : Document.readBody standalone (encoding.input start (source.bytes.drop start)) =
      .ok events) :
    ∃ e offset text after, source.bytes.drop offset = text ++ after ∧
      e.WrittenAt source (doctypeOpen.map byteOf <:+: source.bytes) offset text ∧
      build? source [] events = some e := by
  obtain ⟨⟨d, cells⟩, hprolog, h⟩ := bind_eq_ok_iff.mp h
  obtain ⟨⟨events, rest⟩, hcontent, h⟩ := bind_eq_ok_iff.mp h
  obtain ⟨_, -, h⟩ := bind_eq_ok_iff.mp h
  cases h
  have hspells := spells_input narrow start (source.bytes.drop start)
  have declared (hentities : d.entities ≠ []) : doctypeOpen.map byteOf <:+: source.bytes := by
    by_contra hnone
    have hd := eq_of_readProlog hprolog fun hwithin => hnone <|
      (hspells.infix_bytes toNat_of_mem_doctypeOpen hwithin).trans (List.drop_suffix ..).isInfix
    rw [hd] at hentities
    exact hentities rfl
  obtain ⟨hcells, hbegins⟩ := root_of_readProlog hprolog
  obtain ⟨used, more, hbytes, hroot⟩ := hspells.of_suffix hcells
  have hmore : source.bytes.drop (start + used.length) = more := by
    rw [← List.drop_drop, hbytes, List.drop_left]
  rw [← hmore] at hroot
  obtain ⟨e, text, after, helement⟩ :=
    root_of_rootReadsAs (rootReadsAs_of_content declared hcontent rfl hbegins hroot.beyond_of_far)
      ⟨rfl, hroot⟩
  exact ⟨e, _, text, after, helement⟩

/-- The root is written somewhere in the document. -/
theorem written_of_read {bytes : List UInt8} {m : Markup} (h : Markup.read bytes = .ok m)
    (narrow : (Document.detect bytes).1 = .utf8) :
    ∃ before text after, bytes = before ++ (text ++ after) ∧
      m.root.WrittenAt ⟨bytes⟩ (doctypeOpen.map byteOf <:+: bytes) before.length text := by
  unfold Markup.read at h
  dsimp only at h
  split at h
  · cases h
  · cases h
  · next document hdocument =>
    obtain ⟨standalone, start, encoding, hencoding, hbody⟩ := readBody_of_read hdocument narrow
    obtain ⟨e, offset, text, after, hdrop, hwritten, hbuild⟩ :=
      root_of_readBody ⟨bytes⟩ hencoding hbody
    rw [hbuild] at h
    cases h
    have hwithin : offset ≤ bytes.length := by
      obtain ⟨inner, rfl⟩ := hwritten.bracketed
      refine Nat.le_of_not_lt fun hbeyond => ?_
      rw [List.drop_of_length_le hbeyond.le] at hdrop
      cases hdrop
    have hlength : (bytes.take offset).length = offset := by
      rw [List.length_take, Nat.min_eq_left hwithin]
    refine ⟨bytes.take offset, text, after, ?_, hlength.symm ▸ hwritten⟩
    rw [← hdrop, List.take_append_drop]

end Markup
end UiMarkup
