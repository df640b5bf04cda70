import UiMarkup.Markup.Element
import UiMarkup.Proofs.Text.Utf8
import UiMarkup.Proofs.Xml.Tags
import UiMarkup.Text.Split

/-!
Start tags as they are scanned for the places of their values. A tag is written with blanks, names
and quoted values of any kind. Where it ends is found whatever its values hold, and the scan finds
its attributes and no others, each with the place where its value begins.
-/

namespace UiMarkup

open Text
open Xml (byteOf)

namespace Tag

/-! ### Scanning -/

section

variable {size : Nat} {own more : List UInt8}

theorem valuePlaces_skip (h : ∀ b ∈ own, isNameByte b = false) :
    valuePlaces size (own ++ more) = valuePlaces size more := by
  induction own with
  | nil => rfl
  | cons b own ih =>
      obtain ⟨hb, hown⟩ := List.forall_mem_cons.mp h
      rw [List.cons_append, valuePlaces, dif_neg (by simp [hb]), ih hown]

/-- A name is scanned as a whole, with the value that is assigned to it or without one. -/
theorem valuePlaces_name (hne : own ≠ []) (h : ∀ b ∈ own, isNameByte b)
    (hmore : ∀ b ∈ more.head?, isNameByte b = false) :
    valuePlaces size (own ++ more) =
      match assigned? more with
      | some (value, rest) => (own, size - rest.length - 1 - value.length) :: valuePlaces size rest
      | none => valuePlaces size more := by
  obtain ⟨b, bs, rfl⟩ := List.exists_cons_of_ne_nil hne
  have htake : (b :: (bs ++ more)).takeWhile isNameByte = b :: bs :=
    takeWhile_append_of_head h hmore
  have hdrop : (b :: (bs ++ more)).dropWhile isNameByte = more := dropWhile_append_of_head h hmore
  rw [List.cons_append, valuePlaces, dif_pos (h b List.mem_cons_self)]
  dsimp only
  rw [htake]
  split
  · rename_i value rest heq
    rw [hdrop] at heq
    rw [heq]
  · rename_i heq
    rw [hdrop] at heq ⊢
    rw [heq]

theorem quotedValue?_append {quote : UInt8} {value : List UInt8} (hquote : isQuote quote)
    (ends : quote ∉ value) (rest : List UInt8) :
    quotedValue? (quote :: (value ++ quote :: rest)) = some (value, rest) := by
  have hvalue : ∀ b ∈ value, (b != quote) = true := by
    intro b hb
    rw [bne_iff_ne]
    rintro rfl
    exact ends hb
  have hquote' : ∀ b ∈ (quote :: rest).head?, (b != quote) = false := by
    rintro _ ⟨⟩
    simp
  rw [quotedValue?, takeWhile_append_of_head hvalue hquote',
    dropWhile_append_of_head hvalue hquote', hquote]
  simp

theorem assigned?_append {before after bs : List UInt8} (hbefore : ∀ b ∈ before, isBlank b)
    (hafter : ∀ b ∈ after, isBlank b) (hbs : ∀ b ∈ bs.head?, isBlank b = false) :
    assigned? (before ++ equalsSign :: (after ++ bs)) = quotedValue? bs := by
  have hsign : ∀ b ∈ (equalsSign :: (after ++ bs)).head?, isBlank b = false := by
    rintro _ ⟨⟩
    decide
  rw [assigned?, dropWhile_append_of_head hbefore hsign]
  dsimp only
  rw [if_pos rfl, dropWhile_append_of_head hafter hbs]

theorem assigned?_eq_none {gap bs : List UInt8} (hgap : ∀ b ∈ gap, isBlank b)
    (hbs : ∀ b ∈ bs.head?, isBlank b = false ∧ b ≠ equalsSign) : assigned? (gap ++ bs) = none := by
  rw [assigned?, dropWhile_append_of_head hgap fun b hb => (hbs b hb).1]
  cases bs with
  | nil => rfl
  | cons b bs => exact if_neg (hbs b rfl).2

end

/-! ### Written tags -/

/-- The blanks of ASCII. -/
def spaces : List Char := [' ', '\t', '\n', '\u000B', '\u000C', '\r']

/-- The characters that no name in a tag holds. -/
def nameEnds : List Char := spaces ++ ['=', '/', '>', '"', '\'']

/-- An attribute in a start tag, with the blanks in front of it and around its sign. -/
structure WrittenAttribute where
  gap : List Char
  name : List Char
  before : List Char
  after : List Char
  quote : Char
  value : List Char
  gap_ne_nil : gap ≠ []
  gap_blank : gap ⊆ spaces
  name_ne_nil : name ≠ []
  named : ∀ c ∈ name, c ∉ nameEnds
  before_blank : before ⊆ spaces
  after_blank : after ⊆ spaces
  quoted : quote = '"' ∨ quote = '\''
  ends : quote ∉ value

namespace WrittenAttribute

/-- What stands in front of the quotes. -/
def front (a : WrittenAttribute) : List Char := a.gap ++ a.name ++ a.before ++ '=' :: a.after

/-- What stands in front of the value. -/
def opening (a : WrittenAttribute) : List Char := a.front ++ [a.quote]

def text (a : WrittenAttribute) : List Char := a.opening ++ a.value ++ [a.quote]

end WrittenAttribute

/-- A start tag as it is written, which may be that of an empty element. -/
structure WrittenTag where
  name : List Char
  attributes : List WrittenAttribute
  margin : List Char
  isEmpty : Bool
  named : ∀ c ∈ name, c ∉ nameEnds
  nodup : (attributes.map WrittenAttribute.name).Nodup
  margin_blank : margin ⊆ spaces

namespace WrittenTag

def closing (t : WrittenTag) : List Char := if t.isEmpty then ['/', '>'] else ['>']

/-- What stands in a tag behind its attributes. -/
def ending (t : WrittenTag) : List Char := t.margin ++ t.closing

/-- A tag up to an attribute that comes behind some others. -/
def textBefore (t : WrittenTag) (front : List WrittenAttribute) : List Char :=
  '<' :: (t.name ++ front.flatMap WrittenAttribute.text)

def text (t : WrittenTag) : List Char := t.textBefore t.attributes ++ t.ending

end WrittenTag

/-! ### The bytes of written tags -/

theorem toNat_of_mem_nameEnds : ∀ c ∈ nameEnds, c.toNat < 0x80 := Xml.forall_mem_of_all (by decide)

theorem mem_nameEnds_of_mem_spaces {c : Char} (h : c ∈ spaces) : c ∈ nameEnds :=
  List.mem_append_left _ h

theorem isBlank_of_subset_spaces {cs : List Char} (h : cs ⊆ spaces) :
    ∀ b ∈ encodeUtf8 cs, isBlank b := by
  have hall : ∀ c ∈ spaces, isBlank (byteOf c) := Xml.forall_mem_of_all (by decide)
  rw [encodeUtf8_of_ascii fun c hc => toNat_of_mem_nameEnds c (mem_nameEnds_of_mem_spaces (h hc))]
  intro b hb
  obtain ⟨c, hc, rfl⟩ := List.mem_map.mp hb
  exact hall c (h hc)

theorem exists_of_isBlank {b : UInt8} (h : isBlank b) : ∃ c ∈ spaces, byteOf c = b := by
  have hnat : b.toNat ∈ spaces.map Char.toNat := by
    show b.toNat ∈ [0x20, 0x09, 0x0A, 0x0B, 0x0C, 0x0D]
    simp only [isBlank, Bool.or_eq_true, Bool.and_eq_true, beq_iff_eq, decide_eq_true_eq,
      UInt8.le_iff_toNat_le, ← UInt8.toNat_inj, UInt8.reduceToNat] at h
    simp only [List.mem_cons, List.not_mem_nil]
    omega
  obtain ⟨c, hc, hcb⟩ := List.mem_map.mp hnat
  exact ⟨c, hc, by rw [byteOf, hcb, Nat.toUInt8_eq, UInt8.ofNat_toNat]⟩

/-- No byte of a name is one of a character that it does not hold. -/
theorem ne_byteOf_of_named {cs : List Char} (h : ∀ c ∈ cs, c ∉ nameEnds) {b : UInt8}
    (hb : b ∈ encodeUtf8 cs) : ∀ c ∈ nameEnds, b ≠ byteOf c := by
  intro c hc
  rintro rfl
  exact h c ((byteOf_mem_encodeUtf8_iff (toNat_of_mem_nameEnds c hc)).mp hb) hc

theorem isNameByte_of_named {cs : List Char} (h : ∀ c ∈ cs, c ∉ nameEnds) :
    ∀ b ∈ encodeUtf8 cs, isNameByte b := by
  intro b hb
  have hne := ne_byteOf_of_named h hb
  have hblank : isBlank b = false := by
    rw [Bool.eq_false_iff]
    intro hblank
    obtain ⟨c, hc, rfl⟩ := exists_of_isBlank hblank
    exact hne c (mem_nameEnds_of_mem_spaces hc) rfl
  have hequals : b ≠ equalsSign := hne '=' (by decide)
  have hslash : b ≠ slash := hne '/' (by decide)
  have hangle : b ≠ closeAngle := hne '>' (by decide)
  simp [isNameByte, hblank, hequals, hslash, hangle]

theorem isNameByte_of_isBlank {b : UInt8} (h : isBlank b) : isNameByte b = false := by
  simp [isNameByte, h]

theorem isNameByte_of_mem_head? {gap bs : List UInt8} (hgap : ∀ b ∈ gap, isBlank b)
    (hbs : ∀ b ∈ bs.head?, isNameByte b = false) :
    ∀ b ∈ (gap ++ bs).head?, isNameByte b = false := by
  cases gap with
  | nil => exact hbs
  | cons b gap =>
      rintro _ ⟨⟩
      exact isNameByte_of_isBlank (hgap b List.mem_cons_self)

/-- Text without quotes and without the sign that closes a tag. -/
theorem plain_encodeUtf8 {cs : List Char} (h : ∀ sign ∈ ['"', '\'', '>'], sign ∉ cs) :
    ∀ b ∈ encodeUtf8 cs, isQuote b = false ∧ b ≠ closeAngle := by
  have hascii : ∀ sign ∈ ['"', '\'', '>'], sign.toNat < 0x80 := Xml.forall_mem_of_all (by decide)
  apply Xml.plain_of_notMem
  intro sign hsign
  rw [byteOf_mem_encodeUtf8_iff (hascii sign hsign)]
  exact h sign hsign

theorem not_mem_of_subset_spaces {cs : List Char} (h : cs ⊆ spaces) {c : Char} (hc : c ∉ spaces) :
    c ∉ cs :=
  fun hmem => hc (h hmem)

theorem not_mem_of_named {cs : List Char} (h : ∀ c ∈ cs, c ∉ nameEnds) {c : Char}
    (hc : c ∈ nameEnds) : c ∉ cs :=
  fun hmem => h c hmem hc

namespace WrittenAttribute

variable (a : WrittenAttribute)

theorem not_mem_front {sign : Char} (hsign : sign ∈ ['"', '\'', '>']) : sign ∉ a.front := by
  have hall : ∀ sign ∈ ['"', '\'', '>'], sign ∉ spaces ∧ sign ∈ nameEnds ∧ sign ≠ '=' :=
    Xml.forall_mem_of_all (by decide)
  obtain ⟨hblank, hname, hne⟩ := hall sign hsign
  simp only [front, List.mem_append, List.mem_cons, not_or]
  exact ⟨⟨⟨not_mem_of_subset_spaces a.gap_blank hblank, not_mem_of_named a.named hname⟩,
    not_mem_of_subset_spaces a.before_blank hblank⟩, hne,
    not_mem_of_subset_spaces a.after_blank hblank⟩

theorem of_quotes {p : Char → Prop} (double : p '"') (single : p '\'') : p a.quote := by
  obtain h | h := a.quoted
  · exact h ▸ double
  · exact h ▸ single

theorem quote_ascii : a.quote.toNat < 0x80 :=
  a.of_quotes (p := fun quote => quote.toNat < 0x80) (by decide) (by decide)

theorem isQuote_quote : isQuote (byteOf a.quote) :=
  a.of_quotes (p := fun quote => isQuote (byteOf quote)) rfl rfl

theorem isBlank_quote : isBlank (byteOf a.quote) = false :=
  a.of_quotes (p := fun quote => isBlank (byteOf quote) = false) rfl rfl

theorem encodeUtf8_quote : encodeUtf8 [a.quote] = [byteOf a.quote] :=
  encodeUtf8_of_ascii (List.forall_mem_singleton.mpr a.quote_ascii)

theorem encodeUtf8_text : encodeUtf8 a.text =
    encodeUtf8 a.front ++ byteOf a.quote :: (encodeUtf8 a.value ++ [byteOf a.quote]) := by
  simp only [text, opening, encodeUtf8_append, encodeUtf8_quote]
  simp

theorem quote_not_mem : byteOf a.quote ∉ encodeUtf8 a.value := by
  rw [byteOf_mem_encodeUtf8_iff a.quote_ascii]
  exact a.ends

/-- The scan for the end of a tag passes over a whole attribute. -/
theorem length_append (more : List UInt8) :
    length none (encodeUtf8 a.text ++ more) = (encodeUtf8 a.text).length + length none more := by
  have hplain := plain_encodeUtf8 fun sign hsign => a.not_mem_front hsign
  rw [a.encodeUtf8_text, List.append_assoc, Xml.length_append_of_plain hplain, List.cons_append,
    List.append_assoc, List.singleton_append, length, if_pos a.isQuote_quote,
    Xml.length_quoted a.quote_not_mem]
  simp only [List.length_append, List.length_cons, List.length_nil]
  omega

/-- The bytes behind the name of an attribute: those that assign its value, and what follows. -/
def assignment (more : List UInt8) : List UInt8 :=
  encodeUtf8 a.before ++ equalsSign ::
    (encodeUtf8 a.after ++ byteOf a.quote :: (encodeUtf8 a.value ++ byteOf a.quote :: more))

theorem encodeUtf8_text_append (more : List UInt8) :
    encodeUtf8 a.text ++ more = encodeUtf8 a.gap ++ (encodeUtf8 a.name ++ a.assignment more) := by
  have hequals : encodeUtf8 ('=' :: a.after) = equalsSign :: encodeUtf8 a.after := rfl
  simp only [encodeUtf8_text, front, assignment, encodeUtf8_append, hequals, List.append_assoc,
    List.cons_append, List.nil_append]

theorem assigned?_assignment (more : List UInt8) :
    assigned? (a.assignment more) = some (encodeUtf8 a.value, more) := by
  have hquote : ∀ b ∈ (byteOf a.quote :: (encodeUtf8 a.value ++ byteOf a.quote :: more)).head?,
      isBlank b = false := by
    rintro _ ⟨⟩
    exact a.isBlank_quote
  rw [assignment, assigned?_append (isBlank_of_subset_spaces a.before_blank)
    (isBlank_of_subset_spaces a.after_blank) hquote,
    quotedValue?_append a.isQuote_quote a.quote_not_mem]

theorem isNameByte_head_assignment (more : List UInt8) :
    ∀ b ∈ (a.assignment more).head?, isNameByte b = false := by
  apply isNameByte_of_mem_head? (isBlank_of_subset_spaces a.before_blank)
  rintro _ ⟨⟩
  rfl

/-- The scan for values finds an attribute where it stands, and goes on behind it. -/
theorem valuePlaces_text (size : Nat) (more : List UInt8) :
    valuePlaces size (encodeUtf8 a.text ++ more) =
      (encodeUtf8 a.name, size - more.length - 1 - (encodeUtf8 a.value).length) ::
        valuePlaces size more := by
  have hgap : ∀ b ∈ encodeUtf8 a.gap, isNameByte b = false :=
    fun b hb => isNameByte_of_isBlank (isBlank_of_subset_spaces a.gap_blank b hb)
  rw [encodeUtf8_text_append, valuePlaces_skip hgap,
    valuePlaces_name (encodeUtf8_ne_nil a.name_ne_nil) (isNameByte_of_named a.named)
    (a.isNameByte_head_assignment more), assigned?_assignment]

/-- Attributes written from an offset on, with the offsets of their values. -/
def placesFrom : Nat → List WrittenAttribute → List (List UInt8 × Nat)
  | _, [] => []
  | offset, a :: more =>
    (encodeUtf8 a.name, offset + (encodeUtf8 a.opening).length) ::
      placesFrom (offset + (encodeUtf8 a.text).length) more

theorem names_placesFrom (offset : Nat) (as : List WrittenAttribute) :
    (placesFrom offset as).map (fun p => decodeUtf8 p.1) = as.map name := by
  induction as generalizing offset with
  | nil => rfl
  | cons a as ih => rw [placesFrom, List.map_cons, List.map_cons, decodeUtf8_encodeUtf8, ih]

theorem placesFrom_append (offset : Nat) (as bs : List WrittenAttribute) :
    placesFrom offset (as ++ bs) =
      placesFrom offset as ++ placesFrom (offset + (encodeUtf8 (as.flatMap text)).length) bs := by
  induction as generalizing offset with
  | nil => rfl
  | cons a as ih =>
      rw [List.cons_append, placesFrom, ih, placesFrom, List.flatMap_cons, encodeUtf8_append,
        List.length_append, Nat.add_assoc, List.cons_append]

theorem length_flatMap (as : List WrittenAttribute) (more : List UInt8) :
    length none (encodeUtf8 (as.flatMap text) ++ more) =
      (encodeUtf8 (as.flatMap text)).length + length none more := by
  induction as with
  | nil => exact (Nat.zero_add _).symm
  | cons a as ih =>
      rw [List.flatMap_cons, encodeUtf8_append, List.append_assoc, a.length_append, ih,
        List.length_append, Nat.add_assoc]

/-- The last of some attributes with a name is the one that counts. -/
theorem valueStart_placesFrom (tagStart offset : Nat) (front : List WrittenAttribute)
    {a : WrittenAttribute} {behind : List WrittenAttribute} (last : a.name ∉ behind.map name) :
    Markup.valueStart (placesFrom offset (front ++ a :: behind)) tagStart (String.ofList a.name) =
      tagStart + (offset + (encodeUtf8 (front.flatMap text ++ a.opening)).length) := by
  have hbehind (start : Nat) :
      (placesFrom start behind).reverse.find?
        (fun p => decodeUtf8 p.1 = (String.ofList a.name).toList) = none := by
    rw [List.find?_eq_none]
    intro p hp hname
    rw [decide_eq_true_eq, String.toList_ofList] at hname
    apply last
    rw [← names_placesFrom start, ← hname]
    exact List.mem_map_of_mem (List.mem_reverse.mp hp)
  rw [Markup.valueStart, placesFrom_append, placesFrom, List.reverse_append, List.reverse_cons,
    List.find?_append, List.find?_append, hbehind, List.find?_singleton, decodeUtf8_encodeUtf8,
    String.toList_ofList, encodeUtf8_append, List.length_append, ← Nat.add_assoc offset]
  simp

/-- The scan of some attributes, where it finds nothing behind them. -/
theorem valuePlaces_flatMap (as : List WrittenAttribute) (offset : Nat) {rest : List UInt8}
    (hrest : ∀ size, valuePlaces size rest = []) :
    valuePlaces (offset + (encodeUtf8 (as.flatMap text) ++ rest).length)
      (encodeUtf8 (as.flatMap text) ++ rest) = placesFrom offset as := by
  induction as generalizing offset with
  | nil => exact hrest _
  | cons a as ih =>
      rw [List.flatMap_cons, encodeUtf8_append, List.append_assoc, a.valuePlaces_text, placesFrom]
      have hopening : (encodeUtf8 a.text).length =
          (encodeUtf8 a.opening).length + (encodeUtf8 a.value).length + 1 := by
        rw [text, encodeUtf8_append, encodeUtf8_append, encodeUtf8_quote, List.length_append,
          List.length_append]
        rfl
      congr 1
      · congr 1
        simp only [List.length_append]
        omega
      · rw [← ih]
        congr 1
        simp only [List.length_append]
        omega

end WrittenAttribute

theorem not_blank_of_isNameByte {b : UInt8} (h : isNameByte b) :
    isBlank b = false ∧ b ≠ equalsSign := by
  simp only [isNameByte, Bool.and_eq_true, Bool.not_eq_true', bne_iff_ne] at h
  exact ⟨h.1.1.1, h.1.1.2⟩

namespace WrittenTag

variable (t : WrittenTag)

theorem encodeUtf8_text : encodeUtf8 t.text =
    encodeUtf8 ('<' :: t.name) ++
      (encodeUtf8 (t.attributes.flatMap WrittenAttribute.text) ++ encodeUtf8 t.ending) := by
  rw [text, textBefore, ← List.cons_append, encodeUtf8_append, encodeUtf8_append, List.append_assoc]

theorem name_ends : ∀ c ∈ '<' :: t.name, c ∉ nameEnds :=
  List.forall_mem_cons.mpr ⟨by decide, t.named⟩

theorem encodeUtf8_closing : encodeUtf8 t.closing = Xml.tagClosing t.isEmpty := by
  rw [closing, Xml.tagClosing]
  split <;> rfl

theorem isNameByte_closing : ∀ b ∈ encodeUtf8 t.closing, isNameByte b = false := by
  rw [encodeUtf8_closing]
  cases t.isEmpty with
  | false => exact List.forall_mem_singleton.mpr rfl
  | true => exact List.forall_mem_cons.mpr ⟨rfl, List.forall_mem_singleton.mpr rfl⟩

theorem valuePlaces_ending (size : Nat) : valuePlaces size (encodeUtf8 t.ending) = [] := by
  have hskip : ∀ b ∈ encodeUtf8 t.ending, isNameByte b = false := by
    rw [ending, encodeUtf8_append]
    refine List.forall_mem_append.mpr ⟨fun b hb => ?_, t.isNameByte_closing⟩
    exact isNameByte_of_isBlank (isBlank_of_subset_spaces t.margin_blank b hb)
  rw [← List.append_nil (encodeUtf8 t.ending), valuePlaces_skip hskip, valuePlaces]

/-- Behind the name of a tag there are blanks or its end, and no sign of a value. -/
theorem exists_behind_name : ∃ gap bs,
    encodeUtf8 (t.attributes.flatMap WrittenAttribute.text) ++ encodeUtf8 t.ending = gap ++ bs ∧
      (∀ b ∈ gap, isBlank b) ∧ (∀ b ∈ bs.head?, isBlank b = false ∧ b ≠ equalsSign) ∧
      ∀ b ∈ (gap ++ bs).head?, isNameByte b = false := by
  cases t.attributes with
  | nil =>
      have hmargin := isBlank_of_subset_spaces t.margin_blank
      refine ⟨encodeUtf8 t.margin, encodeUtf8 t.closing, encodeUtf8_append t.margin t.closing,
        hmargin, ?_, ?_⟩
      · rw [encodeUtf8_closing]
        cases t.isEmpty <;> rintro _ ⟨⟩ <;> exact ⟨rfl, by decide⟩
      · exact isNameByte_of_mem_head? hmargin fun b hb =>
          t.isNameByte_closing b (List.mem_of_mem_head? hb)
  | cons a as =>
      have hgap := isBlank_of_subset_spaces a.gap_blank
      refine ⟨encodeUtf8 a.gap, encodeUtf8 a.name ++
        a.assignment (encodeUtf8 (as.flatMap WrittenAttribute.text) ++ encodeUtf8 t.ending),
        ?_, hgap, ?_, ?_⟩
      · rw [List.flatMap_cons, encodeUtf8_append, List.append_assoc, a.encodeUtf8_text_append]
      · intro b hb
        rw [List.head?_append_of_ne_nil _ (encodeUtf8_ne_nil a.name_ne_nil)] at hb
        exact not_blank_of_isNameByte (isNameByte_of_named a.named b (List.mem_of_mem_head? hb))
      · intro b hb
        rw [List.head?_append_of_ne_nil _ (encodeUtf8_ne_nil a.gap_ne_nil)] at hb
        exact isNameByte_of_isBlank (hgap b (List.mem_of_mem_head? hb))

/-- The scan for values finds the attributes of a tag. -/
theorem valuePlaces_text : valuePlaces (encodeUtf8 t.text).length (encodeUtf8 t.text) =
    WrittenAttribute.placesFrom (encodeUtf8 ('<' :: t.name)).length t.attributes := by
  obtain ⟨gap, bs, hbehind, hgap, hbs, hhead⟩ := t.exists_behind_name
  have hnone : assigned? (gap ++ bs) = none := assigned?_eq_none hgap hbs
  have hname := encodeUtf8_ne_nil (List.cons_ne_nil '<' t.name)
  rw [encodeUtf8_text, hbehind, valuePlaces_name hname (isNameByte_of_named t.name_ends) hhead,
    hnone, ← hbehind, List.length_append]
  exact WrittenAttribute.valuePlaces_flatMap t.attributes _ t.valuePlaces_ending

theorem length_append (more : List UInt8) :
    length none (encodeUtf8 t.text ++ more) = (encodeUtf8 t.text).length := by
  have hname : ∀ b ∈ encodeUtf8 ('<' :: t.name), isQuote b = false ∧ b ≠ closeAngle := by
    have hends : ∀ sign ∈ ['"', '\'', '>'], sign ∈ nameEnds := Xml.forall_mem_of_all (by decide)
    exact plain_encodeUtf8 fun sign hsign => not_mem_of_named t.name_ends (hends sign hsign)
  have hmargin : ∀ b ∈ encodeUtf8 t.margin, isQuote b = false ∧ b ≠ closeAngle := by
    have hspaces : ∀ sign ∈ ['"', '\'', '>'], sign ∉ spaces := Xml.forall_mem_of_all (by decide)
    exact plain_encodeUtf8 fun sign hsign =>
      not_mem_of_subset_spaces t.margin_blank (hspaces sign hsign)
  have hclosing : length none (encodeUtf8 t.closing ++ more) = (encodeUtf8 t.closing).length := by
    rw [encodeUtf8_closing]
    cases t.isEmpty <;> rfl
  rw [encodeUtf8_text, ending, encodeUtf8_append t.margin, List.append_assoc, List.append_assoc,
    List.append_assoc, Xml.length_append_of_plain hname, WrittenAttribute.length_flatMap,
    Xml.length_append_of_plain hmargin, hclosing]
  simp only [List.length_append]

theorem text_eq_append {front behind : List WrittenAttribute} {a : WrittenAttribute}
    (h : t.attributes = front ++ a :: behind) :
    t.text = t.textBefore front ++ a.opening ++
      (a.value ++ [a.quote] ++ (behind.flatMap WrittenAttribute.text ++ t.ending)) := by
  rw [text, textBefore, textBefore, h, List.flatMap_append, List.flatMap_cons,
    WrittenAttribute.text]
  simp only [List.cons_append, List.append_assoc]

theorem valueStart_text (i : Nat) {front behind : List WrittenAttribute} {a : WrittenAttribute}
    (h : t.attributes = front ++ a :: behind) :
    Markup.valueStart (valuePlaces (encodeUtf8 t.text).length (encodeUtf8 t.text)) i
      (String.ofList a.name) = i + (encodeUtf8 (t.textBefore front ++ a.opening)).length := by
  have last : a.name ∉ behind.map WrittenAttribute.name := by
    have hnodup := t.nodup
    rw [h, List.map_append, List.map_cons] at hnodup
    exact (List.nodup_cons.mp hnodup.of_append_right).1
  rw [valuePlaces_text, h, WrittenAttribute.valueStart_placesFrom i _ front last,
    textBefore, ← List.cons_append, List.append_assoc, encodeUtf8_append ('<' :: t.name),
    List.length_append]

end WrittenTag

/-- Where a start tag stands, it is found to end with its last character, and its attributes are
found in it, each with the place where its value begins. -/
theorem scan_startTag (t : WrittenTag) {data : List UInt8} {i : Nat}
    (stands : encodeUtf8 t.text <+: data.drop i) :
    let raw := (data.drop i).take (stop data i - i)
    let places := valuePlaces raw.length raw
    stop data i = i + (encodeUtf8 t.text).length ∧
    places.map (fun p => decodeUtf8 p.1) = t.attributes.map WrittenAttribute.name ∧
    ∀ (front : List WrittenAttribute) (a : WrittenAttribute) (behind : List WrittenAttribute),
      t.attributes = front ++ a :: behind →
      let first := i + (encodeUtf8 (t.textBefore front ++ a.opening)).length
      Markup.valueStart places i (String.ofList a.name) = first ∧
      encodeUtf8 (a.value ++ [a.quote]) <+: data.drop first := by
  obtain ⟨more, hdata⟩ := stands
  have hstop : stop data i = i + (encodeUtf8 t.text).length := by
    rw [stop, ← hdata, t.length_append]
  have hraw : (data.drop i).take (stop data i - i) = encodeUtf8 t.text := by
    rw [hstop, Nat.add_sub_cancel_left, ← hdata, List.take_left]
  rw [hraw]
  refine ⟨hstop, ?_, ?_⟩
  · rw [t.valuePlaces_text]
    exact WrittenAttribute.names_placesFrom _ _
  · intro front a behind hsplit
    refine ⟨t.valueStart_text i hsplit, ?_⟩
    rw [← List.drop_drop, ← hdata, t.text_eq_append hsplit,
      encodeUtf8_append (t.textBefore front ++ a.opening), encodeUtf8_append (a.value ++ [a.quote]),
      List.append_assoc, List.drop_left, List.append_assoc]
    exact List.prefix_append _ _

/-- A tag with a value that looks like the end of a tag and an attribute behind it. -/
def slyTag : WrittenTag where
  name := ['t']
  attributes := [
    { gap := [' '], name := ['a'], before := [' '], after := ['\n'], quote := '"',
      value := ['>', 'b', '=', '\'', 'c', '\'']
      gap_ne_nil := by decide
      gap_blank := by decide
      name_ne_nil := by decide
      named := Xml.forall_mem_of_all (by decide)
      before_blank := by decide
      after_blank := by decide
      quoted := .inl rfl
      ends := by decide },
    { gap := [' '], name := ['b'], before := [], after := [], quote := '\'', value := ['"', 'é']
      gap_ne_nil := by decide
      gap_blank := by decide
      name_ne_nil := by decide
      named := Xml.forall_mem_of_all (by decide)
      before_blank := by decide
      after_blank := by decide
      quoted := .inr rfl
      ends := by decide }]
  margin := []
  isEmpty := true
  named := Xml.forall_mem_of_all (by decide)
  nodup := by decide
  margin_blank := by decide

theorem scan_startTag_sly :
    let data := encodeUtf8 ('é' :: (slyTag.text ++ ['>']))
    let raw := (data.drop 2).take (stop data 2 - 2)
    let places := valuePlaces raw.length raw
    encodeUtf8 slyTag.text <+: data.drop 2 ∧ stop data 2 = 27 ∧
      places.map (fun p => decodeUtf8 p.1) = [['a'], ['b']] ∧
      Markup.valueStart places 2 (String.ofList ['a']) = 10 ∧
      Markup.valueStart places 2 (String.ofList ['b']) = 21 := by
  intro data raw places
  have stands : encodeUtf8 slyTag.text <+: data.drop 2 := ⟨[0x3E], rfl⟩
  obtain ⟨hstop, hnames, hstarts⟩ := scan_startTag slyTag stands
  exact ⟨stands, hstop, hnames, (hstarts [] _ _ rfl).1, (hstarts [_] _ [] rfl).1⟩

end Tag

end UiMarkup
