import UiMarkup.Proofs.Xml.Tags

/-!
What stands between tags, as bytes: comments, instructions and sections of plain characters, which
end where their own closing signs come first, and text without an angle bracket.
-/

namespace UiMarkup.Xml

/-- Bytes that end where some closing signs come for the first time. -/
inductive UpTo (closing : List UInt8) : List UInt8 → Prop
  | here : UpTo closing closing
  | later {b : UInt8} {more : List UInt8} (open_ : ¬ closing <+: b :: more)
      (rest : UpTo closing more) :
      UpTo closing (b :: more)

/-- A comment, an instruction or a section of plain characters, by its first
signs and its last ones. -/
inductive IsInset : List UInt8 → Prop
  | comment {text : List UInt8} (ends : UpTo (['-', '-', '>'].map byteOf) text) :
      IsInset (['<', '!', '-', '-'].map byteOf ++ text)
  | instruction {text : List UInt8} (ends : UpTo (['?', '>'].map byteOf) text) :
      IsInset (['<', '?'].map byteOf ++ text)
  | cdata {text : List UInt8} (ends : UpTo ([']', ']', '>'].map byteOf) text) :
      IsInset ((['<', '!', '['] ++ cdataOpen).map byteOf ++ text)

/-- What can stand between two tags. -/
inductive Gap : List UInt8 → Prop
  | nil : Gap []
  | text {own more : List UInt8} (noAngle : byteOf '<' ∉ own) (rest : Gap more) : Gap (own ++ more)
  | inset {own more : List UInt8} (inset : IsInset own) (rest : Gap more) : Gap (own ++ more)

theorem Gap.append {a b : List UInt8} (ha : Gap a) (hb : Gap b) : Gap (a ++ b) := by
  induction ha with
  | nil => exact hb
  | text noAngle _ ih => exact List.append_assoc .. ▸ .text noAngle ih
  | inset inset _ ih => exact List.append_assoc .. ▸ .inset inset ih

/-- Bytes in front that cannot be the first closing sign. -/
theorem UpTo.behind {sign : UInt8} {closing own more : List UInt8} (h : UpTo (sign :: closing) more)
    (hown : sign ∉ own) : UpTo (sign :: closing) (own ++ more) := by
  induction own with
  | nil => exact h
  | cons b own ih =>
      obtain ⟨hb, hown⟩ := not_or.mp (List.mem_cons.not.mp hown)
      exact .later (fun hfront => hb (List.cons_prefix_cons.mp hfront).1) (ih hown)

section Reading

variable {e : Ending} {size offset : Nat} {bytes : List UInt8}

/-- Signs of ASCII that the bytes begin with are the first characters, if there are as many. -/
theorem Spells.prefix_textOf {signs : List Char} (hsigns : ∀ s ∈ signs, s.toNat < 0x80)
    {cs : List Cell} (h : Spells e size offset cs bytes) (hlength : signs.length ≤ cs.length)
    (hfront : signs.map byteOf <+: bytes) : signs <+: textOf cs := by
  induction signs generalizing cs offset bytes with
  | nil => exact List.nil_prefix
  | cons s signs ih =>
      obtain ⟨hs, hsigns⟩ := List.forall_mem_cons.mp hsigns
      cases h with
      | nil => cases hlength
      | @cons c own cs more spelled rest =>
          have hc : c.char = s := by
            refine (spelled.mem_iff hs).mp ?_
            cases spelled with
            | ascii => exact List.mem_singleton.mpr (List.cons_prefix_cons.mp hfront).1
            | beyond => exact (List.cons_prefix_cons.mp hfront).1 ▸ List.mem_cons_self
          obtain rfl := spelled.eq_byteOf (hc ▸ hs)
          have hmore :=
            ih hsigns rest (Nat.le_of_succ_le_succ hlength) (List.cons_prefix_cons.mp hfront).2
          exact List.cons_prefix_cons.mpr ⟨hc.symm, hmore⟩

/-- The closing signs do not come yet. -/
theorem Spells.consumes_later {s : Char} {signs : List Char}
    (hsigns : ∀ d ∈ s :: signs, d.toNat < 0x80) {c : Cell} {cs rest : List Cell}
    (h : Spells e size offset (c :: cs) bytes) (hlength : (s :: signs).length ≤ (c :: cs).length)
    (hopen : ¬ s :: signs <+: textOf (c :: cs))
    (hmore : ∀ {offset bytes}, Spells e size offset cs bytes →
      Consumes e size (UpTo ((s :: signs).map byteOf)) offset bytes rest) :
    Consumes e size (UpTo ((s :: signs).map byteOf)) offset bytes rest := by
  have hfront := h.prefix_textOf hsigns hlength
  obtain ⟨own, between, rfl, hown, hspells⟩ := h.consumes
  obtain ⟨used, more, rfl, hused, hspells⟩ := hmore hspells
  refine ⟨own ++ used, more, (List.append_assoc ..).symm, ?_,
    by rwa [List.length_append, ← Nat.add_assoc]⟩
  cases hown with
  | ascii =>
      refine .later (fun hcloses => hopen (hfront (hcloses.trans ?_))) hused
      exact List.cons_prefix_cons.mpr ⟨rfl, List.prefix_append used more⟩
  | beyond large all =>
      refine hused.behind fun hmem => ?_
      have hs := hsigns s List.mem_cons_self
      have := all _ hmem
      rw [toNat_byteOf hs] at this
      omega

theorem consumes_commentBody {e' : Ending} {cs : List Cell} {t : Taken Unit cs.length}
    (ht : commentBody e' cs = .ok t) (h : Spells e size offset cs bytes) :
    Consumes e size (UpTo (['-', '-', '>'].map byteOf)) offset bytes t.rest := by
  have hsigns : ∀ d ∈ ['-', '-', '>'], d.toNat < 0x80 := forall_mem_of_all (by decide)
  have hbehind {c : Cell} {own used : List UInt8} (hc : c.char ≠ '-') (hown : SpelledBy c own)
      (hused : UpTo (['-', '-', '>'].map byteOf) used) :
      UpTo (['-', '-', '>'].map byteOf) (own ++ used) :=
    hused.behind fun hmem => hc ((hown.mem_iff (by decide)).mp hmem)
  fun_induction commentBody e' cs generalizing offset bytes with
  | case1 => cases ht
  | case2 => cases ht
  | case3 c hc d ds hd =>
      obtain ⟨close, hclose, rfl⟩ := map_eq_ok_iff.mp ht
      have hhyphens : Consumes e size (· = [byteOf '-', byteOf '-']) offset bytes ds := by
        refine (h.consumes_sign hc (by decide)).append (fun h => h.consumes_sign hd (by decide)) ?_
        rintro _ _ rfl rfl
        rfl
      refine hhyphens.append (consumes_of_sign (by decide) hclose) ?_
      rintro _ _ rfl rfl
      exact .here
  | case4 c hc d ds hd ih =>
      obtain ⟨more, hmore, rfl⟩ := map_eq_ok_iff.mp ht
      have hlength : 3 ≤ (c :: d :: ds).length := by
        cases ds with
        | nil => cases hmore
        | cons => simp
      refine h.consumes_later hsigns hlength (fun hcloses => ?_) fun h => ?_
      · exact hd (List.cons_prefix_cons.mp (List.cons_prefix_cons.mp hcloses).2).1.symm
      · exact h.consumes.append (ih hmore) fun hown hused => hbehind hd hown hused
  | case5 c cs hc ih =>
      obtain ⟨more, hmore, rfl⟩ := map_eq_ok_iff.mp ht
      exact h.consumes.append (ih hmore) fun hown hused => hbehind hc hown hused

theorem consumes_instructionBody {e' : Ending} {cs : List Cell} {t : Taken (List Cell) cs.length}
    (ht : instructionBody e' cs = .ok t) (h : Spells e size offset cs bytes) :
    Consumes e size (UpTo (['?', '>'].map byteOf)) offset bytes t.rest := by
  have hsigns : ∀ d ∈ ['?', '>'], d.toNat < 0x80 := forall_mem_of_all (by decide)
  fun_induction instructionBody e' cs generalizing offset bytes with
  | case1 => cases ht
  | case2 => cases ht
  | case3 c d ds hcloses =>
      obtain rfl := Except.ok.inj ht
      refine (h.consumes_sign hcloses.1 (by decide)).append
        (fun h => h.consumes_sign hcloses.2 (by decide)) ?_
      rintro _ _ rfl rfl
      exact .here
  | case4 c d ds hopen ih =>
      obtain ⟨more, hmore, rfl⟩ := map_eq_ok_iff.mp ht
      change Consumes e size _ offset bytes more.rest
      refine h.consumes_later hsigns (by simp) (fun hcloses => hopen ?_) (ih hmore)
      obtain ⟨hc, hcloses⟩ := List.cons_prefix_cons.mp hcloses
      exact ⟨hc.symm, (List.cons_prefix_cons.mp hcloses).1.symm⟩

theorem consumes_instruction {e' : Ending} {cs : List Cell} {t : Taken Instruction cs.length}
    (ht : instruction e' cs = .ok t) (h : Spells e size offset cs bytes) :
    Consumes e size (UpTo (['?', '>'].map byteOf)) offset bytes t.rest := by
  have hbehind {own used : List UInt8} (hown : byteOf '?' ∉ own)
      (hused : UpTo (['?', '>'].map byteOf) used) :
      UpTo (['?', '>'].map byteOf) (own ++ used) := hused.behind hown
  obtain ⟨target, htarget, ht⟩ := bind_eq_ok_iff.mp ht
  dsimp only at ht
  split at ht
  · cases ht
  · next c rest hrest =>
    refine (consumes_name htarget h).append (fun h => ?_) fun hname hused =>
      hbehind (hname.2 '?' (by decide)) hused
    rw [hrest] at h
    split at ht
    · cases ht
    · next hallowed =>
      split at ht
      · next hspace =>
        obtain ⟨body, hbody, ht⟩ := bind_eq_ok_iff.mp ht
        obtain rfl := Except.ok.inj ht
        refine h.consumes.append (consumes_instructionBody hbody) fun hown hused => ?_
        exact hbehind (hown.tagBytes (not_mem_tagSigns_of_isSpace hspace) '?' (by decide)) hused
      · next hspace =>
        obtain ⟨close, hclose, ht⟩ := bind_eq_ok_iff.mp ht
        obtain rfl := Except.ok.inj ht
        have hc : c.char = '?' := by
          simp only [hspace, Bool.false_or, Bool.or_eq_true, not_or] at hallowed
          simpa using hallowed.1
        refine (h.consumes_sign hc (by decide)).append (consumes_of_sign (by decide) hclose) ?_
        rintro _ _ rfl rfl
        exact .here

theorem length_of_cdataRest {e' : Ending} {size' : Nat} {cs : List Cell} {t : Taken Unit cs.length}
    (ht : cdataRest e' size' cs = .ok t) : 3 ≤ cs.length := by
  fun_induction cdataRest e' size' cs with
  | case6 _ _ ih | case8 _ _ _ ih =>
      obtain ⟨more, hmore, -⟩ := map_eq_ok_iff.mp ht
      exact (ih hmore).trans (by simp)
  | case9 | case10 => simp
  | _ => cases ht

theorem consumes_cdataRest {e' : Ending} {size' : Nat} {cs : List Cell} {t : Taken Unit cs.length}
    (ht : cdataRest e' size' cs = .ok t) (h : Spells e size offset cs bytes) :
    Consumes e size (UpTo ([']', ']', '>'].map byteOf)) offset bytes t.rest := by
  have hsigns : ∀ d ∈ [']', ']', '>'], d.toNat < 0x80 := forall_mem_of_all (by decide)
  have hlength := length_of_cdataRest ht
  fun_induction cdataRest e' size' cs generalizing offset bytes with
  | case9 c d g more hcloses =>
      obtain rfl := Except.ok.inj ht
      have hall : ∀ x ∈ [c, d, g], x.char.toNat < 0x80 := by simp [hcloses]
      have htext : textOf [c, d, g] = [']', ']', '>'] := by simp [textOf, hcloses]
      refine (Spells.consumes_signs hall h).mono fun used hused => ?_
      rw [hused, htext]
      exact .here
  | case10 c d g more hopen ih =>
      obtain ⟨t', ht', rfl⟩ := map_eq_ok_iff.mp ht
      refine h.consumes_later hsigns (by simp) (fun hcloses => hopen ?_) fun h =>
        ih ht' h (length_of_cdataRest ht')
      obtain ⟨hc, hcloses⟩ := List.cons_prefix_cons.mp hcloses
      obtain ⟨hd, hcloses⟩ := List.cons_prefix_cons.mp hcloses
      exact ⟨hc.symm, hd.symm, (List.cons_prefix_cons.mp hcloses).1.symm⟩
  | _ => simp at hlength

theorem consumes_cdataOpen {e' : Ending} {signs : List Char} (hsigns : ∀ s ∈ signs, s.toNat < 0x80)
    {cs : List Cell} {t : Taken Unit cs.length} (ht : Xml.signs e' signs cs = .ok t)
    (h : Spells e size offset cs bytes) :
    Consumes e size (· = signs.map byteOf) offset bytes t.rest := by
  induction signs generalizing cs offset bytes with
  | nil =>
      obtain rfl := Except.ok.inj ht
      exact .nothing h rfl
  | cons s signs ih =>
      obtain ⟨hs, hsigns⟩ := List.forall_mem_cons.mp hsigns
      obtain ⟨one, hone, ht⟩ := bind_eq_ok_iff.mp ht
      obtain ⟨more, hmore, ht⟩ := bind_eq_ok_iff.mp ht
      obtain rfl := Except.ok.inj ht
      refine (consumes_of_sign hs hone h).append (ih hsigns hmore) ?_
      rintro _ _ rfl rfl
      rfl

/-- What is read behind an angle bracket that begins no start tag. The opening of a section of plain
characters is read for itself. -/
def insetKind : Inset → List UInt8 → Prop
  | .nothing => IsInset
  | .declaration => fun _ => True
  | .endTag _ _ => IsEndTag
  | .cdata => (· = (['<', '!', '['] ++ cdataOpen).map byteOf)

theorem consumes_comment {e' : Ending} {cs : List Cell} {t : Taken Unit cs.length}
    (ht : comment e' cs = .ok t) (h : Spells e size offset cs bytes) :
    Consumes e size (fun used => ∃ text, used = byteOf '-' :: text ∧
      UpTo (['-', '-', '>'].map byteOf) text) offset
      bytes t.rest := by
  obtain ⟨hyphen, hhyphen, ht⟩ := bind_eq_ok_iff.mp ht
  obtain ⟨body, hbody, ht⟩ := bind_eq_ok_iff.mp ht
  obtain rfl := Except.ok.inj ht
  refine (consumes_of_sign (by decide) hhyphen h).append (consumes_commentBody hbody) ?_
  rintro _ text rfl htext
  exact ⟨text, rfl, htext⟩

/-- The opening of a section of plain characters. -/
theorem consumes_cdataOpening {e' : Ending} {c d g : Cell} {gs : List Cell}
    {mark : Taken Unit gs.length} (hmark : signs e' cdataOpen gs = .ok mark) (hc : c.char = '<')
    (hd : d.char = '!') (hg : g.char = '[') (h : Spells e size offset (c :: d :: g :: gs) bytes) :
    Consumes e size (insetKind .cdata) offset bytes mark.rest := by
  have hall : ∀ x ∈ [c, d, g], x.char.toNat < 0x80 := by simp [hc, hd, hg]
  have htext : textOf [c, d, g] = ['<', '!', '['] := by simp [textOf, hc, hd, hg]
  have hsigns : Consumes e size (· = ['<', '!', '['].map byteOf) offset bytes gs :=
    htext ▸ Spells.consumes_signs hall h
  refine hsigns.append (consumes_cdataOpen (forall_mem_of_all (by decide)) hmark) ?_
  rintro _ _ rfl rfl
  exact (List.map_append ..).symm

theorem consumes_commentInset {e' : Ending} {c d g : Cell} {gs : List Cell}
    {body : Taken Unit gs.length} (hbody : comment e' gs = .ok body) (hc : c.char = '<')
    (hd : d.char = '!') (hg : g.char = '-') (h : Spells e size offset (c :: d :: g :: gs) bytes) :
    Consumes e size IsInset offset bytes body.rest := by
  have hall : ∀ x ∈ [c, d, g], x.char.toNat < 0x80 := by simp [hc, hd, hg]
  have htext : textOf [c, d, g] = ['<', '!', '-'] := by simp [textOf, hc, hd, hg]
  have hsigns : Consumes e size (· = ['<', '!', '-'].map byteOf) offset bytes gs :=
    htext ▸ Spells.consumes_signs hall h
  refine hsigns.append (consumes_comment hbody) ?_
  rintro _ _ rfl ⟨text, rfl, htext⟩
  exact .comment htext

theorem consumes_instructionInset {e' : Ending} {c d : Cell} {cs : List Cell}
    {i : Taken Instruction cs.length} (hi : instruction e' cs = .ok i) (hc : c.char = '<')
    (hd : d.char = '?') (h : Spells e size offset (c :: d :: cs) bytes) :
    Consumes e size IsInset offset bytes i.rest := by
  have hall : ∀ x ∈ [c, d], x.char.toNat < 0x80 := by simp [hc, hd]
  have htext : textOf [c, d] = ['<', '?'] := by simp [textOf, hc, hd]
  have hsigns : Consumes e size (· = ['<', '?'].map byteOf) offset bytes cs :=
    htext ▸ Spells.consumes_signs hall h
  refine hsigns.append (consumes_instruction hi) ?_
  rintro _ used rfl hused
  exact .instruction hused

theorem consumes_inset {e' : Ending} {size' : Nat} {c d : Cell} {cs : List Cell}
    {t : Taken Inset cs.length} (ht : inset e' size' d cs = .ok t) (hc : c.char = '<')
    (h : Spells e size offset (c :: d :: cs) bytes) :
    Consumes e size (insetKind t.value) offset bytes t.rest := by
  unfold inset at ht
  split at ht
  · next hd =>
    obtain ⟨name, hname, ht⟩ := bind_eq_ok_iff.mp ht
    obtain rfl := Except.ok.inj ht
    exact consumes_endTag hname hc hd h
  split at ht
  · next hd =>
    obtain ⟨i, hi, ht⟩ := bind_eq_ok_iff.mp ht
    obtain rfl := Except.ok.inj ht
    refine (consumes_instructionInset hi hc hd h).mono fun used hused => ?_
    change insetKind (if i.value.isDeclaration then .declaration else .nothing) used
    split
    · exact trivial
    · exact hused
  split at ht
  case isFalse => cases ht
  case isTrue hd =>
    split at ht
    · cases ht
    split at ht
    · next hg =>
      obtain ⟨body, hbody, ht⟩ := bind_eq_ok_iff.mp ht
      obtain rfl := Except.ok.inj ht
      exact consumes_commentInset hbody hc hd hg h
    split at ht
    case isFalse => cases ht
    case isTrue hg =>
      split at ht
      · cases ht
      obtain ⟨mark, hmark, ht⟩ := bind_eq_ok_iff.mp ht
      obtain rfl := Except.ok.inj ht
      exact consumes_cdataOpening hmark hc hd hg h

end Reading

end UiMarkup.Xml
