import UiMarkup.Proofs.Outcome
import UiMarkup.Proofs.Xml.Cells

/-!
What is read as a name, as blanks or as a reference, as bytes: none of them holds a sign that
means something in a tag.
-/

namespace UiMarkup.Xml

/-- The signs that mean something in a tag, or tell it from what is no tag. -/
def tagSigns : List Char := ['"', '\'', '<', '>', '/', '!', '?']

/-- A property of some characters is checked for one after the other. -/
theorem forall_mem_of_all {p : Char → Prop} [DecidablePred p] {signs : List Char}
    (h : (signs.all fun s => decide (p s)) = true) : ∀ s ∈ signs, p s := by
  simpa using h

/-- The bytes of names, of blanks and of all else that means nothing outside of quotes. -/
def TagBytes (bytes : List UInt8) : Prop := ∀ sign ∈ tagSigns, byteOf sign ∉ bytes

instance : DecidablePred TagBytes := fun _ => List.decidableBAll _ _

theorem TagBytes.append {a b : List UInt8} (ha : TagBytes a) (hb : TagBytes b) :
    TagBytes (a ++ b) :=
  fun sign hsign hmem => (List.mem_append.mp hmem).elim (ha sign hsign) (hb sign hsign)

theorem TagBytes.no_angle {used : List UInt8} (h : TagBytes used) : byteOf '<' ∉ used :=
  h '<' (by decide)

/-- The bytes that are taken are of a kind, and what is left stands in the bytes behind. -/
def Consumes (e : Ending) (size : Nat) (kind : List UInt8 → Prop) (offset : Nat)
    (bytes : List UInt8) (rest : List Cell) : Prop :=
  ∃ used more, bytes = used ++ more ∧ kind used ∧ Spells e size (offset + used.length) rest more

section Reading

variable {e : Ending} {size offset : Nat} {bytes : List UInt8}
    {kind kind' kind'' : List UInt8 → Prop}

theorem Consumes.mono {rest : List Cell} (h : Consumes e size kind offset bytes rest)
    (himp : ∀ used, kind used → kind' used) : Consumes e size kind' offset bytes rest := by
  obtain ⟨used, more, hbytes, hkind, hspells⟩ := h
  exact ⟨used, more, hbytes, himp used hkind, hspells⟩

theorem Consumes.nothing {rest : List Cell} (h : Spells e size offset rest bytes)
    (hkind : kind []) : Consumes e size kind offset bytes rest :=
  ⟨[], bytes, rfl, hkind, h⟩

/-- Two things one after another. -/
theorem Consumes.append {between rest : List Cell} (h : Consumes e size kind offset bytes between)
    (h' : ∀ {offset bytes}, Spells e size offset between bytes →
      Consumes e size kind' offset bytes rest)
    (happend : ∀ {a b}, kind a → kind' b → kind'' (a ++ b)) :
    Consumes e size kind'' offset bytes rest := by
  obtain ⟨used, more, rfl, hkind, hspells⟩ := h
  obtain ⟨used', more', rfl, hkind', hspells'⟩ := h' hspells
  refine ⟨used ++ used', more', (List.append_assoc ..).symm, happend hkind hkind', ?_⟩
  rwa [List.length_append, ← Nat.add_assoc]

theorem Spells.consumes {c : Cell} {cs : List Cell} (h : Spells e size offset (c :: cs) bytes) :
    Consumes e size (SpelledBy c) offset bytes cs := by
  cases h with
  | cons spelled rest => exact ⟨_, _, rfl, spelled, rest⟩

/-- A sign of ASCII is its own byte. -/
theorem Spells.consumes_sign {c : Cell} {cs : List Cell} {s : Char}
    (h : Spells e size offset (c :: cs) bytes) (hc : c.char = s) (hs : s.toNat < 0x80) :
    Consumes e size (· = [byteOf s]) offset bytes cs :=
  h.consumes.mono fun _ hown => hc ▸ hown.eq_byteOf (hc.symm ▸ hs)

theorem Spells.consumes_signs {cs rest : List Cell} (hsigns : ∀ c ∈ cs, c.char.toNat < 0x80)
    (h : Spells e size offset (cs ++ rest) bytes) :
    Consumes e size (· = (textOf cs).map byteOf) offset bytes rest := by
  induction cs generalizing offset bytes with
  | nil => exact .nothing h rfl
  | cons c cs ih =>
      obtain ⟨hc, hsigns⟩ := List.forall_mem_cons.mp hsigns
      refine (h.consumes_sign rfl hc).append (ih hsigns) ?_
      rintro _ _ rfl rfl
      rfl

/-- Signs of ASCII are found among the bytes where they are among the characters. -/
theorem Spells.infix_bytes {signs : List Char} (hsigns : ∀ s ∈ signs, s.toNat < 0x80)
    {cs : List Cell} (h : Spells e size offset cs bytes) (hwithin : signs <:+: textOf cs) :
    signs.map byteOf <:+: bytes := by
  obtain ⟨before, after, htext⟩ := hwithin
  obtain ⟨_, behind, rfl, hfront, -⟩ := List.map_eq_append_iff.mp htext.symm
  obtain ⟨front, own, rfl, -, rfl⟩ := List.map_eq_append_iff.mp hfront
  rw [List.append_assoc] at h
  obtain ⟨used, more, rfl, hown⟩ := h.of_suffix (List.suffix_append front (own ++ behind))
  obtain ⟨_, rest, rfl, rfl, -⟩ := hown.consumes_signs fun c hc =>
    hsigns c.char (List.mem_map_of_mem hc)
  exact ⟨used, rest, List.append_assoc ..⟩

theorem toNat_of_mem_tagSigns : ∀ sign ∈ tagSigns, sign.toNat < 0x80 :=
  forall_mem_of_all (by decide)

theorem SpelledBy.tagBytes {c : Cell} {own : List UInt8} (h : SpelledBy c own)
    (hc : c.char ∉ tagSigns) : TagBytes own := by
  intro sign hsign hmem
  exact hc ((h.mem_iff (toNat_of_mem_tagSigns _ hsign)).mp hmem ▸ hsign)

theorem not_mem_tagSigns_of_isSpace {c : Cell} (h : c.isSpace) : c.char ∉ tagSigns := by
  simp only [Cell.isSpace, isSpace, Bool.or_eq_true, beq_iff_eq] at h
  obtain ((hc | hc) | hc) | hc := h <;> rw [hc] <;> decide

/-- No sign is part of a name, in whatever encoding. -/
theorem SpelledBy.not_mem_tagSigns_of_inName {c : Cell} {own : List UInt8} (h : SpelledBy c own)
    (hname : c.inName) : c.char ∉ tagSigns := by
  intro hsign
  cases h with
  | ascii _ role =>
      have hrole : ∀ sign ∈ tagSigns, NameRole.ofChar sign = .none := forall_mem_of_all (by decide)
      rw [Cell.inName, role, hrole _ hsign] at hname
      cases hname
  | beyond large _ => exact Nat.not_lt.mpr large (toNat_of_mem_tagSigns _ hsign)

theorem inName_of_startsName {c : Cell} (h : c.startsName) : c.inName := by
  rw [Cell.startsName, beq_iff_eq] at h
  rw [Cell.inName, h]
  rfl

theorem consumes_dropWhile {p : Cell → Bool}
    (hp : ∀ {c own}, p c → SpelledBy c own → c.char ∉ tagSigns) {cs : List Cell}
    (h : Spells e size offset cs bytes) :
    Consumes e size TagBytes offset bytes (cs.dropWhile p) := by
  induction cs generalizing offset bytes with
  | nil => exact .nothing h (by simp [TagBytes])
  | cons c cs ih =>
      rw [List.dropWhile_cons]
      split
      · next hc => exact h.consumes.append ih fun hown hused =>
          (hown.tagBytes (hp hc hown)).append hused
      · exact .nothing h (by simp [TagBytes])

theorem consumes_skipSpaces {cs : List Cell} (h : Spells e size offset cs bytes) :
    Consumes e size TagBytes offset bytes (skipSpaces cs).rest :=
  consumes_dropWhile (fun hc _ => not_mem_tagSigns_of_isSpace hc) h

theorem consumes_spaces {c : Cell} {cs rest : List Cell} (hc : c.isSpace)
    (hrest : (skipSpaces cs).rest = rest) (h : Spells e size offset (c :: cs) bytes) :
    Consumes e size TagBytes offset bytes rest := by
  refine h.consumes.append (fun h => ?_) fun hown hused =>
    (hown.tagBytes (not_mem_tagSigns_of_isSpace hc)).append hused
  rw [← hrest]
  exact consumes_skipSpaces h

/-- Something that is read is not nothing. -/
def NonEmpty (kind : List UInt8 → Prop) (used : List UInt8) : Prop := used ≠ [] ∧ kind used

theorem consumes_name {e' : Ending} {cs : List Cell} {t : Taken (List Cell) cs.length}
    (ht : name e' cs = .ok t) (h : Spells e size offset cs bytes) :
    Consumes e size (NonEmpty TagBytes) offset bytes t.rest := by
  cases cs with
  | nil => cases ht
  | cons c cs =>
      rw [name] at ht
      split at ht
      · next hstart =>
        obtain rfl := Except.ok.inj ht
        refine h.consumes.append
          (consumes_dropWhile fun hc hown => hown.not_mem_tagSigns_of_inName hc) fun ha hb => ?_
        refine ⟨?_,
          (ha.tagBytes (ha.not_mem_tagSigns_of_inName (inName_of_startsName hstart))).append hb⟩
        cases ha <;> simp
      · cases ht

theorem consumes_of_sign {e' : Ending} {s : Char} (hs : s.toNat < 0x80) {cs : List Cell}
    {t : Taken Unit cs.length} (ht : sign e' s cs = .ok t) (h : Spells e size offset cs bytes) :
    Consumes e size (· = [byteOf s]) offset bytes t.rest := by
  cases cs with
  | nil => cases ht
  | cons c cs =>
      rw [sign] at ht
      split at ht
      · next hc =>
        obtain rfl := Except.ok.inj ht
        exact h.consumes_sign hc hs
      · cases ht

theorem consumes_digits {e' : Ending} {digit? : Char → Option Nat}
    (hdigit : ∀ sign ∈ tagSigns, digit? sign = none) {base : Nat} {sofar : Option Nat}
    {cs : List Cell} {t : Taken Nat cs.length}
    (ht : digitsUntilSemicolon e' digit? base sofar cs = .ok t)
    (h : Spells e size offset cs bytes) : Consumes e size TagBytes offset bytes t.rest := by
  induction cs generalizing sofar offset bytes with
  | nil => cases sofar <;> cases ht
  | cons c cs ih =>
      have hsemicolon : ';' ∉ tagSigns := by decide
      unfold digitsUntilSemicolon at ht
      split at ht
      · next d _ hd =>
        obtain ⟨more, hmore, rfl⟩ := map_eq_ok_iff.mp ht
        refine h.consumes.append (ih hmore) fun hown hused =>
          (hown.tagBytes fun hsign => ?_).append hused
        rw [hdigit _ hsign] at hd
        cases hd
      · split at ht
        · next hc =>
          obtain rfl := Except.ok.inj ht
          exact h.consumes.mono fun used hown => hown.tagBytes (hc ▸ hsemicolon)
        · cases ht
      · cases ht

theorem consumes_characterReference {e' : Ending} {cs : List Cell} {t : Taken Reference cs.length}
    (ht : characterReference e' cs = .ok t) (h : Spells e size offset cs bytes) :
    Consumes e size TagBytes offset bytes t.rest := by
  have hx : 'x' ∉ tagSigns := by decide
  have hhex : ∀ sign ∈ tagSigns, Text.hexValue? sign = none := forall_mem_of_all (by decide)
  have hdecimal : ∀ sign ∈ tagSigns, decimalDigit? sign = none := forall_mem_of_all (by decide)
  cases cs with
  | nil => cases ht
  | cons c cs =>
      rw [characterReference] at ht
      split at ht
      · next hc =>
        obtain ⟨n, hn, ht⟩ := bind_eq_ok_iff.mp ht
        obtain rfl := Except.ok.inj ht
        exact h.consumes.append (consumes_digits hhex hn) fun hown hused =>
          (hown.tagBytes (hc ▸ hx)).append hused
      · obtain ⟨n, hn, ht⟩ := bind_eq_ok_iff.mp ht
        obtain rfl := Except.ok.inj ht
        exact consumes_digits hdecimal hn h

/-- A reference holds no sign of a tag. -/
theorem consumes_reference {e' : Ending} {cs : List Cell} {t : Taken Reference cs.length}
    (ht : reference e' cs = .ok t) (h : Spells e size offset cs bytes) :
    Consumes e size TagBytes offset bytes t.rest := by
  have hnumber : '#' ∉ tagSigns := by decide
  have hsemicolon : ';' ∉ tagSigns := by decide
  cases cs with
  | nil => cases ht
  | cons c cs =>
      rw [reference] at ht
      split at ht
      · next hc =>
        obtain ⟨n, hn, rfl⟩ := map_eq_ok_iff.mp ht
        exact h.consumes.append (consumes_characterReference hn) fun hown hused =>
          (hown.tagBytes (hc ▸ hnumber)).append hused
      · obtain ⟨n, hn, ht⟩ := bind_eq_ok_iff.mp ht
        split at ht
        · cases ht
        · next d rest hrest =>
          split at ht
          · next hd =>
            obtain rfl := Except.ok.inj ht
            refine (consumes_name hn h).append (fun h => ?_) fun hname hused => hname.2.append hused
            rw [hrest] at h
            exact h.consumes.mono fun used hown => hown.tagBytes (hd ▸ hsemicolon)
          · cases ht

end Reading

end UiMarkup.Xml
