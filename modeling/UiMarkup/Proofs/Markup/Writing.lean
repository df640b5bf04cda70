import Mathlib
import UiMarkup.Markup.Element

/-!
Markup that is written plainly is read back. The writer takes names and values of one byte a
character, puts double quotes around values, and gives every element an end tag.
-/

namespace UiMarkup

open Text

namespace Xml

/-! ### Characters -/

/-- A character of one byte that is no control character. -/
def isSimple (c : Char) : Bool := 0x20 ≤ c.toNat && c.toNat < 0x80

def isSimpleName : List Char → Bool
  | [] => false
  | c :: cs => isNameStart c && (c :: cs).all fun d => isSimple d && isNameChar d

theorem exists_cons_of_isSimpleName {s : List Char} (h : isSimpleName s) :
    ∃ c cs, s = c :: cs ∧ isNameStart c := by
  cases s with
  | nil => cases h
  | cons c cs => exact ⟨c, cs, rfl, (Bool.and_eq_true_iff.mp h).1⟩

/-- A value that means itself between double quotes. -/
def isSimpleValue (value : List Char) : Bool :=
  value.all fun c => isSimple c && c != '"' && c != '<' && c != '&'

theorem ne_of_isNameStart {c sign : Char} (hc : isNameStart c) (hsign : isNameStart sign = false) :
    c ≠ sign := by
  rintro rfl
  rw [hc] at hsign
  cases hsign

theorem all_isSimple_of_isSimpleName {s : List Char} (h : isSimpleName s) : s.all isSimple := by
  obtain ⟨c, cs, rfl, -⟩ := exists_cons_of_isSimpleName h
  rw [isSimpleName, Bool.and_eq_true, List.all_eq_true] at h
  exact List.all_eq_true.mpr fun d hd => (Bool.and_eq_true_iff.mp (h.2 d hd)).1

theorem all_isSimple_of_isSimpleValue {s : List Char} (h : isSimpleValue s) : s.all isSimple := by
  simp only [isSimpleValue, List.all_eq_true, Bool.and_eq_true] at h ⊢
  exact fun c hc => (h c hc).1.1.1

/-- The cells of characters of one byte each. -/
def cellsFrom : Nat → List Char → List Cell
  | _, [] => []
  | offset, c :: cs => .ofChar c offset :: cellsFrom (offset + 1) cs

theorem cellsFrom_append (offset : Nat) (a b : List Char) :
    cellsFrom offset (a ++ b) = cellsFrom offset a ++ cellsFrom (offset + a.length) b := by
  induction a generalizing offset with
  | nil => rfl
  | cons c a ih => simp [cellsFrom, ih, Nat.add_assoc, Nat.add_comm 1]

theorem textOf_cellsFrom (offset : Nat) (cs : List Char) : textOf (cellsFrom offset cs) = cs := by
  induction cs generalizing offset with
  | nil => rfl
  | cons c cs ih =>
      rw [cellsFrom, textOf, List.map_cons]
      exact congrArg (c :: ·) (ih _)

theorem toNat_of_isSimple {c : Char} (h : isSimple c) : 0x20 ≤ c.toNat ∧ c.toNat < 0x80 := by
  simpa [isSimple] using h

theorem utf8EncodeChar_of_isSimple {c : Char} (h : isSimple c) :
    String.utf8EncodeChar c = [c.toNat.toUInt8] := by
  obtain ⟨-, hsmall⟩ := toNat_of_isSimple h
  have hsize : c.utf8Size = 1 := by
    rw [Char.utf8Size_eq_one_iff, UInt32.le_iff_toNat_le]
    exact Nat.le_of_lt_succ hsmall
  exact String.utf8EncodeChar_eq_singleton hsize

theorem toNat_byte_of_isSimple {c : Char} (h : isSimple c) : c.toNat.toUInt8.toNat = c.toNat :=
  UInt8.toNat_ofNat_of_lt' (Nat.lt_trans (toNat_of_isSimple h).2 (by decide))

theorem encodeUtf8_cons_of_isSimple {c : Char} (h : isSimple c) (cs : List Char) :
    encodeUtf8 (c :: cs) = c.toNat.toUInt8 :: encodeUtf8 cs := by
  rw [encodeUtf8, List.flatMap_cons, utf8EncodeChar_of_isSimple h]
  rfl

/-- Characters of one byte are read one by one. -/
theorem utf8Cells_encodeUtf8 {cs : List Char} (h : cs.all isSimple) (offset : Nat) :
    Encoding.utf8Cells none offset (encodeUtf8 cs) = (cellsFrom offset cs, .finished) := by
  induction cs generalizing offset with
  | nil => rfl
  | cons c cs ih =>
      obtain ⟨hc, hcs⟩ := Bool.and_eq_true_iff.mp h
      obtain ⟨hlarge, hsmall⟩ := toNat_of_isSimple hc
      have hlead : Lead.ofByte c.toNat.toUInt8 = .whole c := by
        rw [Lead.ofByte, toNat_byte_of_isSimple hc, if_pos hsmall, Char.ofNat_toNat]
      have hallowed : Encoding.isForbidden c.toNat = false := by
        simp only [Encoding.isForbidden, Bool.or_eq_false_iff, Bool.and_eq_false_iff,
          decide_eq_false_iff_not, beq_eq_false_iff_ne]
        omega
      rw [encodeUtf8_cons_of_isSimple hc, Encoding.utf8Cells, hlead]
      dsimp only
      rw [Encoding.emit, hallowed, ih hcs, Char.ofNat_toNat]
      rfl

@[simp] theorem startsName_ofChar (c : Char) (offset : Nat) :
    (Cell.ofChar c offset).startsName = isNameStart c := by
  rw [Cell.startsName, Cell.ofChar, NameRole.ofChar]
  cases isNameStart c <;> cases isNameChar c <;> rfl

@[simp] theorem inName_ofChar (c : Char) (offset : Nat) :
    (Cell.ofChar c offset).inName = (isNameStart c || isNameChar c) := by
  rw [Cell.inName, Cell.ofChar, NameRole.ofChar]
  cases isNameStart c <;> cases isNameChar c <;> rfl

/-! ### Tags -/

/-- Reading gives a value and leaves some characters. -/
def Takes {α : Type} {n : Nat} (x : Except Stop (Taken α n)) (a : α) (rest : List Cell) : Prop :=
  ∃ le, x = .ok ⟨a, rest, le⟩

theorem Takes.bind {α β : Type} {m n : Nat} {x : Except Stop (Taken α m)}
    {f : Taken α m → Except Stop (Taken β n)} {a : α} {b : β} {rest rest' : List Cell}
    (hx : Takes x a rest) (hf : ∀ le, Takes (f ⟨a, rest, le⟩) b rest') :
    Takes (x >>= f) b rest' := by
  obtain ⟨le, rfl⟩ := hx
  exact hf le

section Tags

variable (e : Ending) (offset : Nat) (rest : List Cell)

theorem takeWhile_inName {s : List Char} (hs : s.all isNameChar) {c : Cell}
    (hc : c.inName = false) :
    (cellsFrom offset s ++ c :: rest).takeWhile Cell.inName = cellsFrom offset s ∧
      (cellsFrom offset s ++ c :: rest).dropWhile Cell.inName = c :: rest := by
  induction s generalizing offset with
  | nil => simp [cellsFrom, hc]
  | cons d s ih =>
      obtain ⟨hd, hs⟩ := Bool.and_eq_true_iff.mp hs
      obtain ⟨htake, hdrop⟩ := ih (offset + 1) hs
      simp [cellsFrom, hd, htake, hdrop]

theorem takes_name {s : List Char} (hs : isSimpleName s) {c : Cell} (hc : c.inName = false) :
    Takes (name e (cellsFrom offset s ++ c :: rest)) (cellsFrom offset s) (c :: rest) := by
  cases s with
  | nil => cases hs
  | cons d s =>
      obtain ⟨hstart, hall⟩ := Bool.and_eq_true_iff.mp hs
      have hs : s.all isNameChar := by
        simp only [List.all_cons, List.all_eq_true, Bool.and_eq_true] at hall ⊢
        exact fun x hx => (hall.2 x hx).2
      obtain ⟨htake, hdrop⟩ := takeWhile_inName (offset + 1) rest hs hc
      simp only [cellsFrom, List.cons_append, name, startsName_ofChar, hstart, if_true]
      simp only [Taken.behind, Taken.widen, Taken.map, nameTail, htake, hdrop]
      exact ⟨_, rfl⟩

theorem takes_sign (s : Char) : Takes (sign e s (.ofChar s offset :: rest)) () rest :=
  ⟨_, if_pos rfl⟩

theorem takes_quotedPieces {value : List Char} (hvalue : isSimpleValue value) :
    Takes (quotedPieces e '"'
      (cellsFrom offset value ++ .ofChar '"' (offset + value.length) :: rest))
      (value.map .char) rest := by
  induction value generalizing offset with
  | nil =>
      rw [cellsFrom, List.nil_append, quotedPieces]
      exact ⟨_, rfl⟩
  | cons c value ih =>
      obtain ⟨hc, hvalue⟩ := Bool.and_eq_true_iff.mp hvalue
      simp only [Bool.and_eq_true, bne_iff_ne] at hc
      obtain ⟨⟨⟨-, hquote⟩, hless⟩, hand⟩ := hc
      have hchar : (Cell.ofChar c offset).char = c := rfl
      obtain ⟨_, hmore⟩ := ih (offset + 1) hvalue
      rw [List.length_cons, Nat.add_comm value.length, ← Nat.add_assoc, cellsFrom,
        List.cons_append, quotedPieces]
      simp only [hchar, hquote, hless, hand, if_false, hmore]
      exact ⟨_, rfl⟩

theorem takes_attributeLiteral {value : List Char} (hvalue : isSimpleValue value) :
    Takes (attributeLiteral e
      (.ofChar '"' offset ::
        (cellsFrom (offset + 1) value ++ .ofChar '"' (offset + 1 + value.length) :: rest)))
      (value.map .char) rest := by
  obtain ⟨_, hpieces⟩ := takes_quotedPieces e (offset + 1) rest hvalue
  unfold attributeLiteral
  dsimp only
  split
  · rename_i heq
    cases heq
  · rename_i c more heq
    cases heq
    rw [if_pos (.inl rfl)]
    simp only [Cell.ofChar] at hpieces ⊢
    rw [hpieces]
    exact ⟨_, rfl⟩

theorem head?_offset_cellsFrom {s : List Char} (hs : isSimpleName s) (more : List Cell) :
    ((cellsFrom offset s ++ more).head?.map Cell.offset).getD 0 = offset := by
  cases s with
  | nil => cases hs
  | cons c s => rfl

/-- An attribute as it is written. -/
def writeAttribute (name value : String) : List Char :=
  name.toList ++ '=' :: '"' :: (value.toList ++ ['"'])

theorem takes_rawAttribute {name value : String} (hname : isSimpleName name.toList)
    (hvalue : isSimpleValue value.toList) :
    Takes (rawAttribute e (cellsFrom offset (writeAttribute name value) ++ rest))
      ⟨name, offset, value.toList.map .char⟩ rest := by
  have hequals (n : Nat) : (Cell.ofChar '=' n).inName = false := by simp [isNameStart, isNameChar]
  have hcells : cellsFrom offset (writeAttribute name value) ++ rest =
      cellsFrom offset name.toList ++ .ofChar '=' (offset + name.toList.length) ::
        .ofChar '"' (offset + name.toList.length + 1) ::
          (cellsFrom (offset + name.toList.length + 1 + 1) value.toList ++
          .ofChar '"' (offset + name.toList.length + 1 + 1 + value.toList.length) :: rest) := by
    simp [writeAttribute, cellsFrom_append, cellsFrom]
  rw [hcells, rawAttribute]
  refine (takes_name e offset _ hname (hequals _)).bind fun _ => ?_
  refine (takes_sign e _ _ '=').bind fun _ => ?_
  refine (takes_attributeLiteral e _ rest hvalue).bind fun _ => ?_
  rw [head?_offset_cellsFrom offset hname, textOf_cellsFrom, String.ofList_toList]
  exact ⟨_, rfl⟩

theorem isSpace_of_isNameStart {c : Char} (h : isNameStart c) : isSpace c = false := by
  refine Bool.eq_false_iff.mpr fun hspace => ?_
  simp only [isSpace, Bool.or_eq_true, beq_iff_eq] at hspace
  obtain ((hc | hc) | hc) | hc := hspace <;> exact ne_of_isNameStart h rfl hc

theorem Takes.attribute {stop : Stop} {c d : Cell} {ds rest rest' : List Cell} {a : RawAttribute}
    {more : List RawAttribute} {last : Bool} (hc : c.isSpace) (hd : d.startsName)
    (hspace : d.isSpace = false) (ha : Takes (rawAttribute e (d :: ds)) a rest)
    (hmore : Takes (attributesAndEnd e e.stopAtSign rest) (more, last) rest') :
    Takes (attributesAndEnd e stop (c :: d :: ds)) (a :: more, last) rest' := by
  have hskip : (skipSpaces (d :: ds)).rest = d :: ds := by simp [skipSpaces, hspace]
  rw [attributesAndEnd, if_pos hc]
  dsimp only
  split
  · rename_i heq
    cases hskip.symm.trans heq
  · rename_i d' ds' heq
    cases hskip.symm.trans heq
    rw [if_pos hd]
    refine ha.bind fun _ => ?_
    refine hmore.bind fun _ => ?_
    exact ⟨_, rfl⟩

end Tags

/-- The attributes of a tag, each behind a blank. -/
def writeAttributes (attributes : List Attribute) : List Char :=
  attributes.flatMap fun a => ' ' :: writeAttribute a.name a.value

/-- Written attributes, as they are read from an offset on. -/
def rawsFrom : Nat → List Attribute → List RawAttribute
  | _, [] => []
  | offset, a :: more =>
    ⟨a.name, offset + 1, a.value.toList.map .char⟩ ::
      rawsFrom (offset + 1 + (writeAttribute a.name a.value).length) more

/-- An attribute whose name and value are written as they are. -/
def isSimpleAttribute (a : Attribute) : Bool :=
  isSimpleName a.name.toList && isSimpleValue a.value.toList

theorem takes_attributesAndEnd (e : Ending) (stop : Stop) (offset : Nat) (rest : List Cell)
    {attributes : List Attribute} (h : attributes.all isSimpleAttribute) :
    Takes (attributesAndEnd e stop (cellsFrom offset (writeAttributes attributes ++ ['>']) ++ rest))
      (rawsFrom offset attributes, false) rest := by
  induction attributes generalizing offset stop with
  | nil =>
      rw [writeAttributes, List.flatMap_nil, List.nil_append, cellsFrom,
        List.cons_append, attributesAndEnd]
      exact ⟨_, rfl⟩
  | cons a more ih =>
      obtain ⟨ha, hmore⟩ := Bool.and_eq_true_iff.mp h
      obtain ⟨hname, hvalue⟩ := Bool.and_eq_true_iff.mp ha
      have hraw := takes_rawAttribute e (offset + 1)
        (cellsFrom (offset + 1 + (writeAttribute a.name a.value).length)
          (writeAttributes more ++ ['>']) ++ rest)
        hname hvalue
      have hcells : cellsFrom offset (writeAttributes (a :: more) ++ ['>']) ++ rest =
          .ofChar ' ' offset :: (cellsFrom (offset + 1) (writeAttribute a.name a.value) ++
            (cellsFrom (offset + 1 + (writeAttribute a.name a.value).length)
              (writeAttributes more ++ ['>']) ++ rest)) := by
        simp [writeAttributes, cellsFrom_append, cellsFrom]
      obtain ⟨c, cs, hc, hstart⟩ := exists_cons_of_isSimpleName hname
      have hfirst : ∃ cs', writeAttribute a.name a.value = c :: cs' :=
        ⟨_, by rw [writeAttribute, hc, List.cons_append]⟩
      obtain ⟨cs', hwrite⟩ := hfirst
      rw [hcells, hwrite, cellsFrom, List.cons_append]
      rw [hwrite, cellsFrom, List.cons_append] at hraw
      refine .attribute e rfl (by simpa using hstart) (isSpace_of_isNameStart hstart) hraw ?_
      rw [← hwrite]
      exact ih _ _ hmore

/-- Behind the name of a tag, its name is over. -/
theorem exists_cons_writeAttributes (attributes : List Attribute) :
    ∃ c cs, writeAttributes attributes ++ ['>'] = c :: cs ∧
      (isNameStart c || isNameChar c) = false := by
  cases attributes with
  | nil => exact ⟨'>', [], rfl, by simp [isNameStart, isNameChar]⟩
  | cons a more => exact ⟨' ', _, rfl, by simp [isNameStart, isNameChar]⟩

theorem takes_startTag (e : Ending) (offset : Nat) (rest : List Cell) {tag : String}
    {attributes : List Attribute} (htag : isSimpleName tag.toList)
    (h : attributes.all isSimpleAttribute) :
    Takes (startTag e
      (cellsFrom offset (tag.toList ++ (writeAttributes attributes ++ ['>'])) ++ rest))
      ⟨tag, rawsFrom (offset + tag.toList.length) attributes, false⟩ rest := by
  have hattributes := takes_attributesAndEnd e e.stop (offset + tag.toList.length) rest h
  obtain ⟨c, cs, hc, hnone⟩ := exists_cons_writeAttributes attributes
  rw [cellsFrom_append, List.append_assoc, startTag]
  rw [hc, cellsFrom, List.cons_append] at hattributes ⊢
  refine (takes_name e offset _ htag (by simpa using hnone)).bind fun _ => ?_
  refine hattributes.bind fun _ => ?_
  rw [textOf_cellsFrom, String.ofList_toList]
  exact ⟨_, rfl⟩

theorem takes_endTag (e : Ending) (offset : Nat) (rest : List Cell) {tag : String}
    (htag : isSimpleName tag.toList) :
    Takes (endTag e (cellsFrom offset (tag.toList ++ ['>']) ++ rest)) tag rest := by
  have hclose (n : Nat) : (Cell.ofChar '>' n).inName = false := by simp [isNameStart, isNameChar]
  rw [cellsFrom_append, List.append_assoc, endTag, cellsFrom, List.cons_append]
  refine (takes_name e offset _ htag (hclose _)).bind fun _ => ?_
  refine (takes_sign e _ _ '>').bind fun _ => ?_
  rw [textOf_cellsFrom, String.ofList_toList]
  exact ⟨_, rfl⟩

/-! ### Values -/

/-- A document that declares nothing. -/
def nothingDeclared : Doctype := { standalone := false }

theorem appendBy_char {value : List Char} (h : isSimpleValue value) (d : Doctype)
    (enter : Option (List String → List Char → List Char → Except Trouble (List Char)))
    (opened : List String) (sofar : List Char) :
    appendBy d false enter opened sofar (value.map .char) = .ok (value.reverse ++ sofar) := by
  induction value generalizing sofar with
  | nil => simp [appendBy]
  | cons c value ih =>
      obtain ⟨hc, hvalue⟩ := Bool.and_eq_true_iff.mp h
      simp only [Bool.and_eq_true] at hc
      have hlarge := (toNat_of_isSimple hc.1.1.1).1
      -- of the blanks, only the space is simple, and it stays what it is
      have hpush : (if isSpace c then pushBlank false sofar else c :: sofar) = c :: sofar := by
        split
        · rename_i hspace
          simp only [isSpace, Bool.or_eq_true, beq_iff_eq] at hspace
          obtain ((rfl | rfl) | rfl) | rfl := hspace
          · rfl
          · exact absurd hlarge (by decide)
          · exact absurd hlarge (by decide)
          · exact absurd hlarge (by decide)
        · rfl
      rw [List.map_cons, appendBy, hpush, ih hvalue]
      · simp
      · rintro _ _ rfl
        exact absurd hlarge (by decide)

theorem attributeValue_char {value : List Char} (h : isSimpleValue value) (d : Doctype) :
    attributeValue d false (value.map .char) = .ok (String.ofList value) := by
  rw [attributeValue, appendBy_char h]
  simp [pure, Except.pure, bind, Except.bind]

/-- The names and values of attributes. -/
def pairs (attributes : List Attribute) : List (String × String) :=
  attributes.map fun a => (a.name, a.value)

theorem attributeValues_rawsFrom (element : String) (tagOffset offset : Nat) {seen : List String}
    {attributes : List Attribute} (h : attributes.all isSimpleAttribute)
    (hnodup : (attributes.map Attribute.name).Nodup) (hseen : ∀ a ∈ attributes, a.name ∉ seen) :
    attributeValues nothingDeclared element tagOffset seen (rawsFrom offset attributes) =
      .ok (pairs attributes) := by
  induction attributes generalizing offset seen with
  | nil => rfl
  | cons a more ih =>
      obtain ⟨ha, hmore⟩ := Bool.and_eq_true_iff.mp h
      obtain ⟨hfresh, hnodup⟩ := List.nodup_cons.mp hnodup
      rw [List.forall_mem_cons] at hseen
      have hnew : seen.contains a.name = false := by simpa using hseen.1
      have hrest : ∀ b ∈ more, b.name ∉ a.name :: seen := fun b hb => by
        rw [List.mem_cons, not_or]
        exact ⟨fun heq => hfresh (heq ▸ List.mem_map_of_mem hb), hseen.2 b hb⟩
      have hvalue := attributeValue_char (Bool.and_eq_true_iff.mp ha).2 nothingDeclared
      have htokenized : nothingDeclared.isTokenized element a.name = false := rfl
      rw [rawsFrom, attributeValues]
      simp only [hnew, htokenized, hvalue, ih _ hmore hnodup hrest]
      simp [pairs, Except.map]

/-! ### Outside the root -/

/-- The start tag of the root ends the prolog. -/
theorem prologTokens_startTag (e : Ending) (offset : Nat) {c : Char} (hc : isNameStart c)
    (rest : List Cell) :
    prologTokens e (.ofChar '<' offset :: .ofChar c (offset + 1) :: rest) =
      ([], .root (.ofChar '<' offset :: .ofChar c (offset + 1) :: rest)) := by
  have hdeclaration : (Cell.ofChar c (offset + 1)).char ≠ '!' := ne_of_isNameStart hc rfl
  have hinstruction : (Cell.ofChar c (offset + 1)).char ≠ '?' := ne_of_isNameStart hc rfl
  have hangle : PrologToken.afterAngle e (.ofChar c (offset + 1) :: rest) = .ok none := by
    rw [PrologToken.afterAngle, if_neg hdeclaration, if_neg hinstruction, startsName_ofChar, hc]
    rfl
  have hfirst : PrologToken.first e (.ofChar '<' offset) (.ofChar c (offset + 1) :: rest) =
      .ok none := hangle
  rw [prologTokens, hfirst]
  rfl

theorem checkEpilog_nil : Document.checkEpilog .finished [] = .ok () := by
  have hending : Document.epilogEnding .finished [] = .finished := rfl
  rw [Document.checkEpilog, hending, prologTokens.eq_def]
  rfl

/-! ### Content -/

def openTag (tag : String) (attributes : List Attribute) : List Char :=
  '<' :: (tag.toList ++ (writeAttributes attributes ++ ['>']))

def closeTag (tag : String) : List Char := '<' :: '/' :: (tag.toList ++ ['>'])

/-- Events in front of those of the rest. -/
def prepend (events : List Event) (r : Except Error (List Event × List Cell)) :
    Except Error (List Event × List Cell) :=
  r.map fun p => (events ++ p.1, p.2)

section Content

variable {d : Doctype} {fuel : Nat} {o : Origin} {opened outer : List String} {c n : Cell}
    {ns rest : List Cell}

/-- An element begins. -/
theorem content_of_startTag {t : StartTag} {values : List (String × String)}
    (hplace : o.reference = none) (hc : c.char = '<') (hn : n.startsName)
    (ht : Takes (startTag o.ending (n :: ns)) t rest) (hempty : t.isEmpty = false)
    (hall : allAttributes d t c.offset = .ok values) :
    content d fuel o opened (c :: n :: ns) =
      prepend [.start t.name values c.offset] (content d fuel o (t.name :: opened) rest) := by
  obtain ⟨_, ht⟩ := ht
  rw [content, contentBy.eq_def]
  dsimp only
  rw [if_pos hc, if_pos hn, ht]
  dsimp only
  rw [hall, hempty, Origin.place, hplace]
  cases content d fuel o (t.name :: opened) rest <;> rfl

/-- An element ends, and with the root the content does. -/
theorem content_of_endTag {tag : String} (hplace : o.reference = none) (hc : c.char = '<')
    (hn : n.char = '/') (hname : n.startsName = false) (ht : Takes (endTag o.ending ns) tag rest) :
    content d fuel o (tag :: outer) (c :: n :: ns) =
      if outer.isEmpty then .ok ([.finish c.offset], rest)
      else prepend [.finish c.offset] (content d fuel o outer rest) := by
  have hinset : Takes (inset o.ending o.size n ns)
      (.endTag tag ((ns.head?.map Cell.offset).getD o.size)) rest := by
    unfold inset
    rw [if_pos hn]
    exact ht.bind fun _ => ⟨_, rfl⟩
  obtain ⟨_, hinset⟩ := hinset
  rw [content, contentBy.eq_def]
  dsimp only
  rw [if_pos hc, hname, hinset]
  dsimp only
  rw [Origin.place, hplace]
  cases outer with
  | nil => simp
  | cons t outer =>
      simp only [ne_eq, not_true_eq_false, if_false, List.isEmpty_cons, Bool.false_and]
      cases content d fuel o (t :: outer) rest <;> rfl

end Content

end Xml

open Xml

namespace Element

/-- The element can be written plainly, apart from its children. -/
structure Simple (e : Element) : Prop where
  tag : isSimpleName e.tag.toList
  attributes : e.attributes.all isSimpleAttribute
  nodup : (e.attributes.map Attribute.name).Nodup

mutual

/-- The element as it is written, whatever its place was. -/
def write : Element → List Char
  | ⟨tag, attributes, children, _⟩ => openTag tag attributes ++ (writeAll children ++ closeTag tag)

def writeAll : List Element → List Char
  | [] => []
  | e :: es => write e ++ writeAll es

end

mutual

/-- The events of an element that is written from an offset on. -/
def eventsFrom : Element → Nat → List Event
  | ⟨tag, attributes, children, _⟩, offset =>
    let inner := offset + (openTag tag attributes).length
    .start tag (pairs attributes) offset ::
      (eventsFromAll children inner ++ [.finish (inner + (writeAll children).length)])

def eventsFromAll : List Element → Nat → List Event
  | [], _ => []
  | e :: es, offset => eventsFrom e offset ++ eventsFromAll es (offset + (write e).length)

end

theorem mem_walk_self (e : Element) : e ∈ e.walk := by
  cases e
  exact List.mem_cons_self

theorem prepend_prepend (a b : List Event) (r : Except Error (List Event × List Cell)) :
    prepend a (prepend b r) = prepend (a ++ b) r := by
  cases r <;> simp [prepend, Except.map]

theorem prepend_nil (r : Except Error (List Event × List Cell)) : prepend [] r = r := by
  cases r <;> simp [prepend, Except.map]

theorem content_openTag {tag : String} {attributes : List Attribute}
    (htag : isSimpleName tag.toList) (hattributes : attributes.all isSimpleAttribute)
    (hnodup : (attributes.map Attribute.name).Nodup) {fuel : Nat}
    {o : Origin} (hplace : o.reference = none) (opened : List String) (offset : Nat)
    (rest : List Cell) :
    content nothingDeclared fuel o opened (cellsFrom offset (openTag tag attributes) ++ rest) =
      prepend [.start tag (pairs attributes) offset]
        (content nothingDeclared fuel o (tag :: opened) rest) := by
  have ht := takes_startTag o.ending (offset + 1) rest htag hattributes
  have hvalues : attributeValues nothingDeclared tag offset []
      (rawsFrom (offset + 1 + tag.toList.length) attributes) = .ok (pairs attributes) :=
    attributeValues_rawsFrom tag _ _ hattributes hnodup (by simp)
  have hall : allAttributes nothingDeclared
      ⟨tag, rawsFrom (offset + 1 + tag.toList.length) attributes, false⟩ offset =
        .ok (pairs attributes) := by
    rw [allAttributes, hvalues]
    simp [defaultValues, Doctype.declaredFor, nothingDeclared, OrderedMap.get?, bind,
      Except.bind, pure, Except.pure]
  obtain ⟨c, cs, hc, hstart⟩ := exists_cons_of_isSimpleName htag
  have hcells : cellsFrom (offset + 1) (tag.toList ++ (writeAttributes attributes ++ ['>'])) ++
      rest = .ofChar c (offset + 1) ::
        (cellsFrom (offset + 1 + 1) (cs ++ (writeAttributes attributes ++ ['>'])) ++ rest) := by
    rw [hc]
    rfl
  rw [hcells] at ht
  rw [openTag, cellsFrom, List.cons_append, hcells]
  exact content_of_startTag hplace rfl (by simpa using hstart) ht rfl hall

theorem content_closeTag {tag : String} (htag : isSimpleName tag.toList) {d : Doctype} {fuel : Nat}
    {o : Origin} (hplace : o.reference = none) (outer : List String) (offset : Nat)
    (rest : List Cell) :
    content d fuel o (tag :: outer) (cellsFrom offset (closeTag tag) ++ rest) =
      if outer.isEmpty then .ok ([.finish offset], rest)
      else prepend [.finish offset] (content d fuel o outer rest) := by
  rw [closeTag, cellsFrom, cellsFrom, List.cons_append, List.cons_append]
  exact content_of_endTag hplace rfl rfl (by simp [isNameStart]) (takes_endTag o.ending _ rest htag)

mutual

theorem content_write {fuel : Nat} {o : Origin} (hplace : o.reference = none) :
    ∀ e : Element, (∀ d ∈ e.walk, d.Simple) → ∀ opened offset rest,
      content nothingDeclared fuel o opened (cellsFrom offset e.write ++ rest) =
        if opened.isEmpty then .ok (e.eventsFrom offset, rest)
        else prepend (e.eventsFrom offset) (content nothingDeclared fuel o opened rest)
  | ⟨tag, attributes, children, span⟩, h, opened, offset, rest => by
      rw [walk, List.forall_mem_cons] at h
      obtain ⟨hown, hchildren⟩ := h
      rw [write, cellsFrom_append, List.append_assoc,
        content_openTag hown.tag hown.attributes hown.nodup hplace, cellsFrom_append,
        List.append_assoc, content_writeAll hplace children hchildren,
        content_closeTag hown.tag hplace]
      cases opened with
      | nil => rfl
      | cons t outer => simp [prepend_prepend, eventsFrom]

theorem content_writeAll {fuel : Nat} {o : Origin} (hplace : o.reference = none) :
    ∀ es : List Element, (∀ d ∈ walkAll es, d.Simple) → ∀ tag outer offset rest,
      content nothingDeclared fuel o (tag :: outer) (cellsFrom offset (writeAll es) ++ rest) =
        prepend (eventsFromAll es offset) (content nothingDeclared fuel o (tag :: outer) rest)
  | [], _, tag, outer, offset, rest => by
      rw [eventsFromAll, prepend_nil]
      rfl
  | e :: es, h, tag, outer, offset, rest => by
      rw [walkAll, List.forall_mem_append] at h
      rw [writeAll, cellsFrom_append, List.append_assoc, content_write hplace e h.1,
        List.isEmpty_cons, content_writeAll hplace es h.2]
      simp only [Bool.false_eq_true, if_false, prepend_prepend, eventsFromAll]

end

/-! ### Documents -/

theorem writeAttribute_all {a : Attribute} (h : isSimpleAttribute a) :
    (writeAttribute a.name a.value).all isSimple := by
  obtain ⟨hname, hvalue⟩ := Bool.and_eq_true_iff.mp h
  have hname : a.name.toList.all isSimple := all_isSimple_of_isSimpleName hname
  have hvalue : a.value.toList.all isSimple := all_isSimple_of_isSimpleValue hvalue
  simp only [writeAttribute, List.all_append, List.all_cons, hname, hvalue]
  rfl

theorem openTag_all {tag : String} {attributes : List Attribute} (htag : isSimpleName tag.toList)
    (hattributes : attributes.all isSimpleAttribute) : (openTag tag attributes).all isSimple := by
  have htag : tag.toList.all isSimple := all_isSimple_of_isSimpleName htag
  have hattributes : (writeAttributes attributes).all isSimple := by
    rw [List.all_eq_true] at hattributes
    rw [writeAttributes, List.all_flatMap, List.all_eq_true]
    intro a ha
    rw [List.all_cons, writeAttribute_all (hattributes a ha)]
    rfl
  simp only [openTag, List.all_append, List.all_cons, htag, hattributes]
  rfl

theorem closeTag_all {tag : String} (htag : isSimpleName tag.toList) :
    (closeTag tag).all isSimple := by
  have htag : tag.toList.all isSimple := all_isSimple_of_isSimpleName htag
  simp only [closeTag, List.all_append, List.all_cons, htag]
  rfl

mutual

theorem write_all : ∀ e : Element, (∀ d ∈ e.walk, d.Simple) → e.write.all isSimple
  | ⟨tag, attributes, children, span⟩, h => by
      rw [walk, List.forall_mem_cons] at h
      obtain ⟨hown, hchildren⟩ := h
      rw [write, List.all_append, List.all_append, openTag_all hown.tag hown.attributes,
        writeAll_all children hchildren, closeTag_all hown.tag]
      rfl

theorem writeAll_all :
    ∀ es : List Element, (∀ d ∈ walkAll es, d.Simple) → (writeAll es).all isSimple
  | [], _ => rfl
  | e :: es, h => by
      rw [walkAll, List.forall_mem_append] at h
      rw [writeAll, List.all_append, write_all e h.1, writeAll_all es h.2]
      rfl

end

/-- What is written begins a start tag. -/
theorem exists_write_eq {e : Element} (h : isSimpleName e.tag.toList) :
    ∃ c cs, e.write = '<' :: c :: cs ∧ isNameStart c := by
  obtain ⟨tag, attributes, children, span⟩ := e
  obtain ⟨c, cs, hc, hstart⟩ := exists_cons_of_isSimpleName h
  refine ⟨c, cs ++ (writeAttributes attributes ++ ['>']) ++ (writeAll children ++ closeTag tag),
    ?_, hstart⟩
  dsimp only at hc
  rw [write, openTag, hc]
  rfl

theorem declaration?_startTag (e : Ending) (size : Nat) {c : Char} (hc : isNameStart c)
    (rest : List Cell) :
    Document.declaration? ⟨.ofChar '<' 0 :: .ofChar c 1 :: rest, e, size⟩ = .ok none := by
  unfold Document.declaration?
  split
  · rename_i heq
    simp only [Cell.ofChar, List.cons.injEq, Cell.mk.injEq] at heq
    exact absurd heq.2.1.1 (ne_of_isNameStart hc rfl)
  · rfl

theorem readBody_write {e : Element} (h : ∀ d ∈ e.walk, d.Simple) (size : Nat) :
    Document.readBody false ⟨cellsFrom 0 e.write, .finished, size⟩ = .ok (e.eventsFrom 0) := by
  have htag : isSimpleName e.tag.toList := (h e e.mem_walk_self).tag
  obtain ⟨c, cs, hc, hstart⟩ := exists_write_eq htag
  have hprolog : readProlog nothingDeclared ⟨cellsFrom 0 e.write, .finished, size⟩ =
      .ok (nothingDeclared, cellsFrom 0 e.write) := by
    rw [readProlog, hc, cellsFrom, cellsFrom, prologTokens_startTag .finished 0 hstart]
    rfl
  have hcontent (o : Origin) (hplace : o.reference = none) :
      content nothingDeclared (nothingDeclared.entities.length + 1) o [] (cellsFrom 0 e.write) =
        .ok (e.eventsFrom 0, []) := by
    rw [← List.append_nil (cellsFrom 0 e.write), content_write hplace e h]
    rfl
  rw [Document.readBody]
  change (readProlog nothingDeclared _ >>= _) = _
  rw [hprolog]
  change (content nothingDeclared _ _ [] (cellsFrom 0 e.write) >>= _) = _
  rw [hcontent _ rfl]
  change (Document.checkEpilog .finished [] >>= _) = _
  rw [checkEpilog_nil]
  rfl

/-- A document that begins with an angle bracket and no zero byte is not in UTF-16. -/
theorem detect_angle {b : UInt8} (hb : b ≠ 0) (bs : List UInt8) :
    Document.detect (0x3C :: b :: bs) = (.utf8, 0) := by
  unfold Document.detect
  split <;> simp_all

theorem document_read_write {e : Element} (h : ∀ d ∈ e.walk, d.Simple) :
    Xml.Document.read (encodeUtf8 e.write) = .ok ⟨e.eventsFrom 0, false⟩ := by
  have htag : isSimpleName e.tag.toList := (h e e.mem_walk_self).tag
  obtain ⟨c, cs, hc, hstart⟩ := exists_write_eq htag
  have hbytes : encodeUtf8 e.write = 0x3C :: encodeUtf8 (c :: cs) := by rw [hc]; rfl
  have hfragment : Document.isFragment (encodeUtf8 e.write) = false := by
    rw [hbytes]
    simp [Document.isFragment]
  have hdetect : Document.detect (encodeUtf8 e.write) = (.utf8, 0) := by
    have hall := write_all e h
    rw [hc, List.all_cons, List.all_cons, Bool.and_eq_true, Bool.and_eq_true] at hall
    rw [hbytes, encodeUtf8_cons_of_isSimple hall.2.1]
    refine detect_angle (fun hzero => ?_) _
    have hbyte := toNat_byte_of_isSimple hall.2.1
    rw [hzero] at hbyte
    exact absurd (toNat_of_isSimple hall.2.1).1 (hbyte ▸ by decide)
  have hinput : Encoding.utf8.input 0 (encodeUtf8 e.write) =
      ⟨cellsFrom 0 e.write, .finished, 0 + (encodeUtf8 e.write).length⟩ := by
    rw [Encoding.input, Encoding.cells, utf8Cells_encodeUtf8 (write_all e h)]
  have hdeclaration :
      Document.declaration? ⟨cellsFrom 0 e.write, .finished, 0 + (encodeUtf8 e.write).length⟩ =
      .ok none := by
    rw [hc]
    exact declaration?_startTag _ _ hstart _
  rw [Document.read, hfragment, hdetect]
  dsimp only
  rw [List.drop_zero]
  simp only [hinput, hdeclaration, readBody_write h]
  rfl

/-! ### Markup -/

mutual

/-- The element as it is read from a source in which it is written from an offset on. -/
def placed (source : SourceMap) : Element → Nat → Element
  | ⟨tag, attributes, children, _⟩, offset =>
    let inner := offset + (openTag tag attributes).length
    ⟨tag, Markup.placeAttributes source offset (pairs attributes), placedAll source children inner,
      source.span offset (Tag.stop source.bytes (inner + (writeAll children).length))⟩

def placedAll (source : SourceMap) : List Element → Nat → List Element
  | [], _ => []
  | e :: es, offset => placed source e offset :: placedAll source es (offset + (write e).length)

end

/-- Names and values are read as they are written. -/
theorem values_placed (e : Element) (source : SourceMap) (offset : Nat) :
    (e.placed source offset).values = (pairs e.attributes).filter fun p =>
      !Markup.isNamespace p.1 := by
  obtain ⟨tag, attributes, children, span⟩ := e
  rw [placed, values, Markup.placeAttributes, List.map_map]
  exact List.map_id _

mutual

theorem build?_write (source : SourceMap) :
    ∀ (e : Element) (offset : Nat) (opened : List Markup.Started)
    (more : List Event), Markup.build? source opened (e.eventsFrom offset ++ more) =
      match opened with
      | [] => some (e.placed source offset)
      | s :: opened =>
        Markup.build? source ({ s with children := e.placed source offset :: s.children } :: opened)
          more
  | ⟨tag, attributes, children, span⟩, offset, opened, more => by
      rw [eventsFrom, List.cons_append, Markup.build?, List.append_assoc,
        build?_writeAll source children]
      cases opened with
      | nil => simp [Markup.build?, Markup.close, placed]
      | cons s opened => simp [Markup.build?, Markup.close, placed]

theorem build?_writeAll (source : SourceMap) :
    ∀ (es : List Element) (offset : Nat) (s : Markup.Started) (opened :
      List Markup.Started) (more : List Event),
      Markup.build? source (s :: opened) (eventsFromAll es offset ++ more) =
        Markup.build? source
          ({ s with children := (placedAll source es offset).reverse ++ s.children } :: opened) more
  | [], offset, s, opened, more => rfl
  | e :: es, offset, s, opened, more => by
      rw [eventsFromAll, List.append_assoc, build?_write source e]
      dsimp only
      rw [build?_writeAll source es]
      simp [placedAll]

end

/-- Markup that is written plainly is read back. -/
theorem read_write {e : Element} (h : ∀ d ∈ e.walk, d.Simple) :
    Markup.read (encodeUtf8 e.write) =
      .ok ⟨e.placed ⟨encodeUtf8 e.write⟩ 0, ⟨encodeUtf8 e.write⟩, false⟩ := by
  have hbuild := build?_write ⟨encodeUtf8 e.write⟩ e 0 [] []
  rw [List.append_nil] at hbuild
  rw [Markup.read, document_read_write h]
  dsimp only
  rw [hbuild]

end Element
end UiMarkup
