import UiMarkup.Markup.Tag
import UiMarkup.Proofs.Xml.Tokens

/-!
What tags are as bytes: no angle bracket stands in a tag but its own ones, unless it is in quotes.
Whatever is read as a tag is one, and where it ends is found by passing over what is in quotes.
-/

namespace UiMarkup.Xml

/-- What stands in a tag behind its first sign. An angle bracket that closes may be in quotes. -/
inductive TagBody : List UInt8 → Prop
  | nil : TagBody []
  | plain {own more : List UInt8} (bytes : TagBytes own) (rest : TagBody more) :
      TagBody (own ++ more)
  | quoted {quote : Char} {value more : List UInt8} (sign : quote = '"' ∨ quote = '\'')
      (ends : byteOf quote ∉ value) (noAngle : byteOf '<' ∉ value) (rest : TagBody more) :
      TagBody (byteOf quote :: (value ++ byteOf quote :: more))

def tagClosing (isEmpty : Bool) : List UInt8 :=
  if isEmpty then [byteOf '/', byteOf '>'] else [byteOf '>']

/-- A start tag, which may be that of an empty element. -/
inductive IsStartTag (isEmpty : Bool) : List UInt8 → Prop
  | intro {name body : List UInt8} (named : name ≠ []) (bytes : TagBytes name)
      (rest : TagBody body) :
      IsStartTag isEmpty (byteOf '<' :: (name ++ body ++ tagClosing isEmpty))

inductive IsEndTag : List UInt8 → Prop
  | intro {body : List UInt8} (bytes : TagBytes body) :
      IsEndTag (byteOf '<' :: byteOf '/' :: (body ++ [byteOf '>']))

theorem TagBytes.tagBody {bytes : List UInt8} (h : TagBytes bytes) : TagBody bytes :=
  List.append_nil bytes ▸ .plain h .nil

theorem TagBody.append {a b : List UInt8} (ha : TagBody a) (hb : TagBody b) : TagBody (a ++ b) := by
  induction ha with
  | nil => exact hb
  | plain bytes _ ih => exact List.append_assoc .. ▸ .plain bytes ih
  | quoted sign ends noAngle _ ih =>
      rw [List.cons_append, List.append_assoc, List.cons_append]
      exact .quoted sign ends noAngle ih

theorem TagBody.no_angle {body : List UInt8} (h : TagBody body) : byteOf '<' ∉ body := by
  induction h with
  | nil => exact List.not_mem_nil
  | plain bytes _ ih => exact fun hmem => (List.mem_append.mp hmem).elim bytes.no_angle ih
  | @quoted quote _ _ sign _ noAngle _ ih =>
      have hquote : byteOf '<' ≠ byteOf quote := by obtain rfl | rfl := sign <;> decide
      simp [hquote, noAngle, ih]

/-- Behind its own angle bracket, a start tag opens no other. -/
theorem IsStartTag.no_angle_tail {isEmpty : Bool} {tag : List UInt8} (h : IsStartTag isEmpty tag) :
    byteOf '<' ∉ tag.tail := by
  have hclosing : byteOf '<' ∉ tagClosing isEmpty := by cases isEmpty <;> decide
  obtain @⟨name, body, -, bytes, rest⟩ := h
  simp [bytes.no_angle, rest.no_angle, hclosing]

/-! ### Lengths -/

/-- Bytes outside of quotes that do not close a tag are passed over. -/
theorem length_append_of_plain {own : List UInt8}
    (h : ∀ b ∈ own, Tag.isQuote b = false ∧ b ≠ Tag.closeAngle) (more : List UInt8) :
    Tag.length none (own ++ more) = own.length + Tag.length none more := by
  induction own with
  | nil => exact (Nat.zero_add _).symm
  | cons b own ih =>
      obtain ⟨⟨hquote, hangle⟩, hown⟩ := List.forall_mem_cons.mp h
      rw [List.cons_append, Tag.length, hquote, if_neg Bool.false_ne_true, if_neg hangle,
        ih hown, List.length_cons]
      omega

theorem plain_of_notMem {own : List UInt8} (h : ∀ sign ∈ ['"', '\'', '>'], byteOf sign ∉ own) :
    ∀ b ∈ own, Tag.isQuote b = false ∧ b ≠ Tag.closeAngle := by
  intro b hb
  have hne (sign : Char) (hsign : sign ∈ ['"', '\'', '>']) : b ≠ byteOf sign := by
    rintro rfl
    exact h sign hsign hb
  refine ⟨?_, hne '>' (by decide)⟩
  rw [Tag.isQuote, Bool.or_eq_false_iff, beq_eq_false_iff_ne, beq_eq_false_iff_ne]
  exact ⟨hne '"' (by decide), hne '\'' (by decide)⟩

theorem TagBytes.length_append {own : List UInt8} (h : TagBytes own) (more : List UInt8) :
    Tag.length none (own ++ more) = own.length + Tag.length none more := by
  have hsigns : ∀ sign ∈ ['"', '\'', '>'], sign ∈ tagSigns := forall_mem_of_all (by decide)
  exact length_append_of_plain (plain_of_notMem fun sign hsign => h sign (hsigns sign hsign)) more

theorem length_quoted {quote : UInt8} {value : List UInt8} (h : quote ∉ value) (more : List UInt8) :
    Tag.length (some quote) (value ++ quote :: more) = value.length + 1 + Tag.length none more := by
  induction value with
  | nil => simp [Tag.length]
  | cons b value ih =>
      obtain ⟨hb, hvalue⟩ := not_or.mp (List.mem_cons.not.mp h)
      rw [List.cons_append, Tag.length, if_neg (Ne.symm hb), ih hvalue, List.length_cons]
      omega

theorem TagBody.length_append {body : List UInt8} (h : TagBody body) (more : List UInt8) :
    Tag.length none (body ++ more) = body.length + Tag.length none more := by
  induction h with
  | nil => exact (Nat.zero_add _).symm
  | plain bytes _ ih =>
      rw [List.append_assoc, bytes.length_append, ih, List.length_append, Nat.add_assoc]
  | @quoted quote value rest sign ends _ _ ih =>
      have hquote : Tag.isQuote (byteOf quote) := by obtain rfl | rfl := sign <;> decide
      rw [List.cons_append, List.append_assoc, List.cons_append, Tag.length, if_pos hquote,
        length_quoted ends, ih]
      simp only [List.length_cons, List.length_append]
      omega

theorem length_openAngle (bytes : List UInt8) :
    Tag.length none (byteOf '<' :: bytes) = 1 + Tag.length none bytes := rfl

/-- A start tag ends with its own angle bracket, whatever comes behind. -/
theorem IsStartTag.length_append {isEmpty : Bool} {tag : List UInt8} (h : IsStartTag isEmpty tag)
    (more : List UInt8) : Tag.length none (tag ++ more) = tag.length := by
  have hclosing : Tag.length none (tagClosing isEmpty ++ more) = (tagClosing isEmpty).length := by
    cases isEmpty <;> rfl
  cases h with
  | @intro name body _ bytes rest =>
      calc
        Tag.length none (byteOf '<' :: (name ++ body ++ tagClosing isEmpty) ++ more)
        _ = 1 + Tag.length none (name ++ (body ++ (tagClosing isEmpty ++ more))) := by
          simp [length_openAngle]
        _ = 1 + (name.length + (body.length + (tagClosing isEmpty).length)) := by
          rw [bytes.length_append, rest.length_append, hclosing]
        _ = _ := by simp only [List.length_cons, List.length_append]; omega

/-- An end tag ends with its own angle bracket, whatever comes behind. -/
theorem IsEndTag.length_append {tag : List UInt8} (h : IsEndTag tag) (more : List UInt8) :
    Tag.length none (tag ++ more) = tag.length := by
  have hclosing : Tag.length none (byteOf '>' :: more) = 1 := rfl
  have hslash (bytes : List UInt8) : Tag.length none (byteOf '/' :: bytes) =
      1 + Tag.length none bytes := rfl
  cases h with
  | @intro body bytes =>
      calc
        Tag.length none (byteOf '<' :: byteOf '/' :: (body ++ [byteOf '>']) ++ more)
        _ = 1 + (1 + Tag.length none (body ++ byteOf '>' :: more)) := by
          simp [length_openAngle, hslash]
        _ = 1 + (1 + (body.length + 1)) := by rw [bytes.length_append, hclosing]
        _ = _ := by simp only [List.length_cons, List.length_append, List.length_nil]; omega

section Reading

variable {e : Ending} {size offset : Nat} {bytes : List UInt8}

/-- A quoted value behind its first quote. -/
def IsQuotedRest (quote : Char) (used : List UInt8) : Prop :=
  ∃ value, used = value ++ [byteOf quote] ∧ byteOf quote ∉ value ∧ byteOf '<' ∉ value

theorem IsQuotedRest.behind {quote : Char} {own used : List UInt8} (h : IsQuotedRest quote used)
    (hquote : byteOf quote ∉ own) (hangle : byteOf '<' ∉ own) :
    IsQuotedRest quote (own ++ used) := by
  obtain ⟨value, rfl, hvalue, hvalue'⟩ := h
  exact ⟨own ++ value, (List.append_assoc ..).symm,
    fun hmem => (List.mem_append.mp hmem).elim hquote hvalue, fun hmem =>
      (List.mem_append.mp hmem).elim hangle hvalue'⟩

theorem consumes_quotedPieces {e' : Ending} {quote : Char} (hquote : quote ∈ tagSigns)
    {cs : List Cell} {t : Taken (List Piece) cs.length} (ht : quotedPieces e' quote cs = .ok t)
    (h : Spells e size offset cs bytes) :
    Consumes e size (IsQuotedRest quote) offset bytes t.rest := by
  have hascii := toNat_of_mem_tagSigns _ hquote
  fun_induction quotedPieces e' quote cs generalizing offset bytes with
  | case1 => cases ht
  | case2 c cs hc =>
      obtain rfl := Except.ok.inj ht
      exact (h.consumes_sign hc hascii).mono fun used hused =>
        ⟨[], hused, List.not_mem_nil, List.not_mem_nil⟩
  | case3 => cases ht
  | case4 c cs hne hless hand ih =>
      obtain ⟨r, hr, ht⟩ := bind_eq_ok_iff.mp ht
      obtain ⟨more, hmore, ht⟩ := bind_eq_ok_iff.mp ht
      obtain rfl := Except.ok.inj ht
      have hreference : Consumes e size (fun used => byteOf quote ∉ used ∧ byteOf '<' ∉ used)
          offset bytes r.rest := by
        refine h.consumes.append (consumes_reference hr) fun hown hused =>
          ⟨fun hmem => ?_, fun hmem => ?_⟩
        · exact (List.mem_append.mp hmem).elim (fun hmem => hne ((hown.mem_iff hascii).mp hmem))
            (hused _ hquote)
        · exact (List.mem_append.mp hmem).elim
            (fun hmem => hless ((hown.mem_iff (by decide)).mp hmem)) hused.no_angle
      change Consumes e size _ offset bytes more.rest
      exact hreference.append (ih r hmore) fun hown hused => hused.behind hown.1 hown.2
  | case5 c cs hne hless hand ih =>
      obtain ⟨more, hmore, ht⟩ := bind_eq_ok_iff.mp ht
      obtain rfl := Except.ok.inj ht
      change Consumes e size _ offset bytes more.rest
      refine h.consumes.append (ih hmore) fun hown hused => hused.behind ?_ ?_
      · rwa [hown.mem_iff hascii]
      · rwa [hown.mem_iff (by decide)]

theorem mem_tagSigns_of_quote {quote : Char} (h : quote = '"' ∨ quote = '\'') :
    quote ∈ tagSigns := by
  obtain rfl | rfl := h <;> decide

theorem IsQuotedRest.tagBody {quote : Char} {used : List UInt8} (h : IsQuotedRest quote used)
    (hquote : quote = '"' ∨ quote = '\'') : TagBody ([byteOf quote] ++ used) := by
  obtain ⟨value, rfl, hvalue, hangle⟩ := h
  exact .quoted hquote hvalue hangle .nil

theorem consumes_attributeLiteral {e' : Ending} {cs : List Cell} {t : Taken (List Piece) cs.length}
    (ht : attributeLiteral e' cs = .ok t) (h : Spells e size offset cs bytes) :
    Consumes e size TagBody offset bytes t.rest := by
  unfold attributeLiteral at ht
  dsimp only at ht
  split at ht
  · cases ht
  · next c rest hrest =>
    split at ht
    · next hquote =>
      obtain ⟨value, hvalue, ht⟩ := bind_eq_ok_iff.mp ht
      obtain rfl := Except.ok.inj ht
      have hsign := mem_tagSigns_of_quote hquote
      refine (consumes_skipSpaces h).append (fun h => ?_) fun hspaces hused =>
        hspaces.tagBody.append hused
      rw [hrest] at h
      change Consumes e size TagBody _ _ value.rest
      refine (h.consumes_sign rfl (toNat_of_mem_tagSigns _ hsign)).append
        (consumes_quotedPieces hsign hvalue) ?_
      rintro _ used rfl hused
      exact hused.tagBody hquote
    · cases ht

theorem consumes_rawAttribute {e' : Ending} {cs : List Cell} {t : Taken RawAttribute cs.length}
    (ht : rawAttribute e' cs = .ok t) (h : Spells e size offset cs bytes) :
    Consumes e size TagBody offset bytes t.rest := by
  have hequals : TagBytes [byteOf '='] := by decide
  obtain ⟨n, hn, ht⟩ := bind_eq_ok_iff.mp ht
  dsimp only at ht
  split at ht
  · cases ht
  · obtain ⟨equals, hsign, ht⟩ := bind_eq_ok_iff.mp ht
    obtain ⟨value, hvalue, ht⟩ := bind_eq_ok_iff.mp ht
    obtain rfl := Except.ok.inj ht
    refine (consumes_name hn h).append (fun h => ?_) fun hname hused => hname.2.tagBody.append hused
    refine (consumes_skipSpaces h).append (fun h => ?_) fun hspaces hused =>
      hspaces.tagBody.append hused
    refine (consumes_of_sign (by decide) hsign h).append (consumes_attributeLiteral hvalue) ?_
    rintro _ used rfl hused
    exact hequals.tagBody.append hused

theorem consumes_tagEnd {e' : Ending} {c : Cell} {cs : List Cell} {t : Taken Bool cs.length}
    (ht : tagEnd e' c cs = .ok t) (h : Spells e size offset (c :: cs) bytes) :
    Consumes e size (· = tagClosing t.value) offset bytes t.rest := by
  rw [tagEnd] at ht
  split at ht
  · next hc =>
    obtain rfl := Except.ok.inj ht
    exact h.consumes_sign hc (by decide)
  · split at ht
    · next hc =>
      obtain ⟨close, hclose, ht⟩ := bind_eq_ok_iff.mp ht
      obtain rfl := Except.ok.inj ht
      refine (h.consumes_sign hc (by decide)).append (consumes_of_sign (by decide) hclose) ?_
      rintro _ _ rfl rfl
      rfl
    · cases ht

/-- What stands in a tag behind its name, with the closing signs. -/
def IsTagRest (isEmpty : Bool) (used : List UInt8) : Prop :=
  ∃ body, used = body ++ tagClosing isEmpty ∧ TagBody body

theorem IsTagRest.behind {isEmpty : Bool} {own used : List UInt8} (h : IsTagRest isEmpty used)
    (hown : TagBody own) : IsTagRest isEmpty (own ++ used) := by
  obtain ⟨body, rfl, hbody⟩ := h
  exact ⟨own ++ body, (List.append_assoc ..).symm, hown.append hbody⟩

theorem consumes_attributesAndEnd {e' : Ending} {stop : Stop} {cs : List Cell}
    {t : Taken (List RawAttribute × Bool) cs.length} (ht : attributesAndEnd e' stop cs = .ok t)
    (h : Spells e size offset cs bytes) :
    Consumes e size (IsTagRest t.value.2) offset bytes t.rest := by
  have hend {isEmpty : Bool} {used : List UInt8} (hused : used = tagClosing isEmpty) :
      IsTagRest isEmpty used :=
    ⟨[], hused, .nil⟩
  fun_induction attributesAndEnd e' stop cs generalizing offset bytes with
  | case1 => cases ht
  | case2 => cases ht
  | case3 stop c cs hc spaces d rest hrest =>
      rename_i ih
      obtain ⟨a, ha, ht⟩ := bind_eq_ok_iff.mp ht
      obtain ⟨more, hmore, ht⟩ := bind_eq_ok_iff.mp ht
      obtain rfl := Except.ok.inj ht
      have hspaces := consumes_spaces hc hrest h
      have hattribute : Consumes e size TagBody offset bytes a.rest :=
        hspaces.append (consumes_rawAttribute ha) fun hspaces hused => hspaces.tagBody.append hused
      exact hattribute.append (ih a hmore) fun ha hused => hused.behind ha
  | case4 stop c cs hc spaces d rest hrest =>
      obtain ⟨last, hlast, ht⟩ := bind_eq_ok_iff.mp ht
      obtain rfl := Except.ok.inj ht
      have hspaces := consumes_spaces hc hrest h
      exact hspaces.append (consumes_tagEnd hlast) fun hspaces hused =>
        (hend hused).behind hspaces.tagBody
  | case5 stop c cs _ =>
      obtain ⟨last, hlast, ht⟩ := bind_eq_ok_iff.mp ht
      obtain rfl := Except.ok.inj ht
      exact (consumes_tagEnd hlast h).mono fun used hused => hend hused

theorem consumes_startTag {e' : Ending} {cs : List Cell} {t : Taken StartTag cs.length}
    (ht : startTag e' cs = .ok t) {c : Cell} (hc : c.char = '<')
    (h : Spells e size offset (c :: cs) bytes) :
    Consumes e size (IsStartTag t.value.isEmpty) offset bytes t.rest := by
  obtain ⟨n, hn, ht⟩ := bind_eq_ok_iff.mp ht
  obtain ⟨more, hmore, ht⟩ := bind_eq_ok_iff.mp ht
  obtain rfl := Except.ok.inj ht
  have hname : Consumes e size
      (fun used => ∃ name, used = byteOf '<' :: name ∧ name ≠ [] ∧ TagBytes name) offset bytes
      n.rest := by
    refine (h.consumes_sign hc (by decide)).append (consumes_name hn) ?_
    rintro _ name rfl ⟨hne, hname⟩
    exact ⟨name, rfl, hne, hname⟩
  refine hname.append (consumes_attributesAndEnd hmore) ?_
  rintro _ _ ⟨name, rfl, hne, hname⟩ ⟨body, rfl, hbody⟩
  rw [List.cons_append, ← List.append_assoc]
  exact .intro hne hname hbody

theorem consumes_endTag {e' : Ending} {cs : List Cell} {t : Taken String cs.length}
    (ht : endTag e' cs = .ok t) {c d : Cell} (hc : c.char = '<') (hd : d.char = '/')
    (h : Spells e size offset (c :: d :: cs) bytes) :
    Consumes e size IsEndTag offset bytes t.rest := by
  obtain ⟨n, hn, ht⟩ := bind_eq_ok_iff.mp ht
  let kind (used : List UInt8) : Prop :=
    ∃ body, used = byteOf '<' :: byteOf '/' :: body ∧ TagBytes body
  have hopen : Consumes e size (· = [byteOf '<', byteOf '/']) offset bytes cs := by
    refine (h.consumes_sign hc (by decide)).append (fun h => h.consumes_sign hd (by decide)) ?_
    rintro _ _ rfl rfl
    rfl
  have hname : Consumes e size kind offset bytes n.rest := by
    refine hopen.append (consumes_name hn) ?_
    rintro _ name rfl ⟨-, hname⟩
    exact ⟨name, rfl, hname⟩
  have hclosed {rest : List Cell} {close : Taken Unit rest.length}
      (hclose : sign e' '>' rest = .ok close) (hbody : Consumes e size kind offset bytes rest) :
      Consumes e size IsEndTag offset bytes close.rest := by
    refine hbody.append (consumes_of_sign (by decide) hclose) ?_
    rintro _ _ ⟨body, rfl, hbody⟩ rfl
    exact .intro hbody
  dsimp only at ht
  split at ht
  · cases ht
  · split at ht
    · obtain ⟨close, hclose, ht⟩ := bind_eq_ok_iff.mp ht
      obtain rfl := Except.ok.inj ht
      refine hclosed hclose (hname.append consumes_skipSpaces ?_)
      rintro _ spaces ⟨body, rfl, hbody⟩ hspaces
      exact ⟨body ++ spaces, rfl, hbody.append hspaces⟩
    · obtain ⟨close, hclose, ht⟩ := bind_eq_ok_iff.mp ht
      obtain rfl := Except.ok.inj ht
      exact hclosed hclose hname

end Reading

end UiMarkup.Xml
