import Mathlib
import UiMarkup.Proofs.Outcome
import UiMarkup.Xml.Prolog

/-!
Where the root element begins: what is left by the tokens before it is the end of the characters,
and begins with an angle bracket that no declaration, comment or instruction can have.
-/

namespace UiMarkup.Xml

/-- What is left of some characters is their end. -/
def Leaves {α : Type} {n : Nat} (cs : List Cell) (x : Except Stop (Taken α n)) : Prop :=
  ∀ t, x = .ok t → t.rest <:+ cs

namespace Leaves

variable {α β : Type} {m n : Nat} {cs : List Cell}

theorem error (stop : Stop) : Leaves cs (.error stop : Except Stop (Taken α n)) := by
  intro t ht
  cases ht

theorem ok {t : Taken α n} (h : t.rest <:+ cs) : Leaves cs (.ok t) :=
  fun _ ht => Except.ok.inj ht ▸ h

theorem map {x : Except Stop (Taken α m)} {f : Taken α m → Taken β n} (h : Leaves cs x)
    (hf : ∀ t, (f t).rest = t.rest) : Leaves cs (x.map f) := by
  intro t ht
  obtain ⟨t', ht', rfl⟩ := map_eq_ok_iff.mp ht
  exact hf t' ▸ h t' ht'

theorem bind {x : Except Stop (Taken α m)} {f : Taken α m → Except Stop (Taken β n)}
    (h : Leaves cs x) (hf : ∀ t, t.rest <:+ cs → Leaves cs (f t)) : Leaves cs (x >>= f) := by
  intro t ht
  obtain ⟨t', ht', ht⟩ := bind_eq_ok_iff.mp ht
  exact hf t' (h t' ht') t ht

theorem behind {x : Except Stop (Taken α n)} (h : Leaves cs x) (c : Cell) : Leaves (c :: cs) x :=
  fun t ht => (h t ht).trans (List.suffix_cons c cs)

end Leaves

section

variable (e : Ending)

theorem leaves_name (cs : List Cell) : Leaves cs (name e cs) := by
  cases cs with
  | nil => exact .error _
  | cons c cs =>
      rw [name]
      split
      · exact .ok ((List.dropWhile_suffix _).trans (List.suffix_cons c cs))
      · exact .error _

theorem leaves_sign (s : Char) (cs : List Cell) : Leaves cs (sign e s cs) := by
  cases cs with
  | nil => exact .error _
  | cons c cs =>
      rw [sign]
      split
      · exact .ok (List.suffix_cons c cs)
      · exact .error _

theorem leaves_commentBody (cs : List Cell) : Leaves cs (commentBody e cs) := by
  fun_induction commentBody e cs with
  | case1 => exact .error _
  | case2 => exact .error _
  | case3 c _ d ds => exact (((leaves_sign e '>' ds).behind d).behind c).map fun _ => rfl
  | case4 c _ d ds _ ih => exact ((ih.behind d).behind c).map fun _ => rfl
  | case5 c cs _ ih => exact (ih.behind c).map fun _ => rfl

theorem leaves_comment (cs : List Cell) : Leaves cs (comment e cs) := by
  refine (leaves_sign e '-' cs).bind fun hyphen hrest => ?_
  exact Leaves.bind (fun t ht => (leaves_commentBody e _ t ht).trans hrest) fun body hrest =>
    .ok hrest

theorem leaves_instructionBody (cs : List Cell) : Leaves cs (instructionBody e cs) := by
  fun_induction instructionBody e cs with
  | case1 => exact .error _
  | case2 => exact .error _
  | case3 c d ds => exact .ok ((List.suffix_cons d ds).trans (List.suffix_cons c _))
  | case4 c d ds _ ih => exact (ih.behind c).map fun _ => rfl

theorem leaves_instruction (cs : List Cell) : Leaves cs (instruction e cs) := by
  refine (leaves_name e cs).bind fun target htarget => ?_
  dsimp only
  split
  · exact .error _
  · next c rest hrest =>
    have hrest : rest <:+ cs := (List.suffix_cons c rest).trans (hrest ▸ htarget)
    split
    · exact .error _
    · split
      · exact Leaves.bind (fun t ht => (leaves_instructionBody e _ t ht).trans hrest)
          fun body hrest => .ok hrest
      · exact Leaves.bind (fun t ht => (leaves_sign e '>' _ t ht).trans hrest) fun close hrest =>
          .ok hrest

end

namespace PrologToken

variable (e : Ending)

theorem leaves_atEnd {α : Type} {n : Nat} {cs : List Cell} {t : Taken α n} (stop : Stop)
    (h : t.rest <:+ cs) : Leaves cs (atEnd stop t) := by
  rw [atEnd]
  split
  · exact .ok h
  · exact .error _

theorem leaves_literalUntil (quote : Char) (cs : List Cell) :
    Leaves cs (literalUntil e quote cs) := by
  fun_induction literalUntil e quote cs with
  | case1 => exact .error _
  | case2 c => exact leaves_atEnd _ List.nil_suffix
  | case3 c _ d ds => exact .ok (List.suffix_cons c _)
  | case4 => exact .error _
  | case5 c cs _ ih => exact (ih.behind c).map fun _ => rfl

theorem leaves_keyword (sofar cs : List Cell) : Leaves cs (keyword e sofar cs) := by
  fun_induction keyword e sofar cs with
  | case1 => exact .error _
  | case2 sofar c cs _ ih => exact (ih.behind c).map fun _ => rfl
  | case3 => exact .error _
  | case4 => exact .ok List.suffix_rfl
  | case5 => exact .error _
  | case6 => exact .ok List.suffix_rfl
  | case7 => exact .error _
  | case8 => exact .ok List.suffix_rfl
  | case9 => exact .error _

theorem leaves_markupDeclaration (cs : List Cell) : Leaves cs (markupDeclaration e cs) := by
  unfold markupDeclaration
  split
  · refine ((leaves_comment e _).behind _).bind fun body hbody => .ok hbody
  · exact .ok (List.suffix_cons _ _)
  · exact (leaves_keyword e [] _).bind fun word hword => .ok hword

theorem leaves_afterPercent (cs : List Cell) : Leaves cs (afterPercent e cs) := by
  unfold afterPercent
  split
  · exact .error _
  · next c cs =>
    split
    · exact .ok List.suffix_rfl
    · refine (leaves_name e _).bind fun n hn => ?_
      split
      · exact .error _
      · next d rest hrest =>
        split
        · exact .ok ((List.suffix_cons d rest).trans (hrest ▸ hn))
        · exact .error _

theorem leaves_afterHash (cs : List Cell) : Leaves cs (afterHash e cs) := by
  refine (leaves_name e cs).bind fun n hn => ?_
  dsimp only
  split
  · exact leaves_atEnd _ List.nil_suffix
  · split
    · exact .ok hn
    · exact .error _

theorem leaves_afterParen (cs : List Cell) : Leaves cs (afterParen e cs) := by
  unfold afterParen
  split
  · exact leaves_atEnd _ List.nil_suffix
  · split
    · exact .ok (List.suffix_cons _ _)
    · split
      · exact .ok List.suffix_rfl
      · exact .error _

theorem leaves_afterBracket (cs : List Cell) : Leaves cs (afterBracket e cs) := by
  unfold afterBracket
  split
  · exact .ok ((List.suffix_cons _ _).trans (List.suffix_cons _ _))
  · split
    · exact .error _
    · exact .ok List.suffix_rfl
  · exact .ok List.suffix_rfl

theorem leaves_nameOrWord (c : Cell) (cs : List Cell) : Leaves cs (nameOrWord e c cs) := by
  have htail : (nameTail cs).rest <:+ cs := List.dropWhile_suffix _
  unfold nameOrWord
  dsimp only
  split
  · exact leaves_atEnd _ List.nil_suffix
  · next d rest hrest =>
    split
    · exact .ok htail
    · split
      · exact .ok ((List.suffix_cons d rest).trans (hrest ▸ htail))
      · exact .error _

/-- What begins a start tag: an angle bracket, and no sign of anything else. -/
def BeginsTag (cs : List Cell) : Prop :=
  ∃ c rest, cs = c :: rest ∧ c.char = '<' ∧ ∀ n ∈ rest.head?, n.startsName ∨ n.far

theorem afterAngle_eq_ok {cs : List Cell} {t : Option (Taken PrologToken cs.length)}
    (h : afterAngle e cs = .ok t) :
    (t = none → ∀ n ∈ cs.head?, n.startsName ∨ n.far) ∧ ∀ token ∈ t, token.rest <:+ cs := by
  cases cs with
  | nil =>
      refine ⟨by simp, fun token htoken => ?_⟩
      rw [List.suffix_nil, ← List.length_eq_zero_iff]
      exact Nat.le_zero.mp token.le
  | cons c cs =>
      rw [afterAngle] at h
      split at h
      · obtain ⟨token, htoken, rfl⟩ := map_eq_ok_iff.mp h
        have hrest := leaves_markupDeclaration e cs token htoken
        exact ⟨by simp, by rintro _ ⟨⟩; exact hrest.trans (List.suffix_cons c cs)⟩
      · split at h
        · obtain ⟨i, hi, h⟩ := bind_eq_ok_iff.mp h
          obtain rfl := Except.ok.inj h
          have hrest := leaves_instruction e cs i hi
          exact ⟨by simp, by rintro _ ⟨⟩; exact hrest.trans (List.suffix_cons c cs)⟩
        · split at h
          · next hstart =>
            obtain rfl := Except.ok.inj h
            refine ⟨fun _ n hn => ?_, by simp⟩
            obtain rfl := Option.some.inj hn
            simpa using hstart
          · cases h

theorem first_eq_ok {c : Cell} {cs : List Cell} {t : Option (Taken PrologToken cs.length)}
    (h : first e c cs = .ok t) :
    (t = none → BeginsTag (c :: cs)) ∧ ∀ token ∈ t, token.rest <:+ cs := by
  have hsome {α : Type} {x : Except Stop (Taken α cs.length)}
      {f : Taken α cs.length → Taken PrologToken cs.length} (hx : Leaves cs x)
      (hf : ∀ t, (f t).rest = t.rest) (h : x.map (fun t => some (f t)) = .ok t) :
      (t = none → BeginsTag (c :: cs)) ∧ ∀ token ∈ t, token.rest <:+ cs := by
    obtain ⟨taken, htaken, rfl⟩ := map_eq_ok_iff.mp h
    refine ⟨by simp, ?_⟩
    rintro _ ⟨⟩
    exact hf taken ▸ hx taken htaken
  have hone {token : PrologToken}
      (h : (Except.ok (some (.nothing token cs)) : Except Stop _) = .ok t) :
      (t = none → BeginsTag (c :: cs)) ∧ ∀ token ∈ t, token.rest <:+ cs := by
    obtain rfl := Except.ok.inj h
    refine ⟨by simp, ?_⟩
    rintro _ ⟨⟩
    exact List.suffix_rfl
  unfold first at h
  dsimp only at h
  split at h
  · next hc =>
    obtain ⟨hnone, hrest⟩ := afterAngle_eq_ok e h
    exact ⟨fun ht => ⟨c, cs, rfl, hc, hnone ht⟩, hrest⟩
  · exact hsome (leaves_literalUntil e _ cs) (fun _ => rfl) h
  · exact hsome (leaves_literalUntil e _ cs) (fun _ => rfl) h
  · exact hsome (leaves_afterPercent e cs) (fun _ => rfl) h
  · exact hsome (leaves_afterHash e cs) (fun _ => rfl) h
  · exact hsome (leaves_afterParen e cs) (fun _ => rfl) h
  · exact hsome (leaves_afterBracket e cs) (fun _ => rfl) h
  · exact hone h
  · exact hone h
  · exact hone h
  · exact hone h
  · exact hone h
  · split at h
    · exact hsome (leaves_nameOrWord e c cs) (fun _ => rfl) h
    · cases h

end PrologToken

open PrologToken (BeginsTag)

/-- The root is the end of the characters from its angle bracket on. -/
theorem root_of_prologTokens {e : Ending} {cs cells : List Cell} {tokens : List (PrologToken × Nat)}
    (h : prologTokens e cs = (tokens, .root cells)) : cells <:+ cs ∧ BeginsTag cells := by
  fun_induction prologTokens e cs generalizing tokens with
  | case1 | case2 | case3 | case4 | case6 | case8 => cases h
  | case5 c cs _ ih =>
      obtain ⟨hcells, hbegins⟩ := ih h
      exact ⟨hcells.trans (List.suffix_cons c cs), hbegins⟩
  | case7 c cs _ hfirst =>
      cases h
      exact ⟨List.suffix_rfl, (PrologToken.first_eq_ok e hfirst).1 rfl⟩
  | case9 c cs _ t hfirst more ending hmore _ ih =>
      cases h
      obtain ⟨hcells, hbegins⟩ := ih hmore
      exact ⟨(hcells.trans ((PrologToken.first_eq_ok e hfirst).2 t rfl)).trans
        (List.suffix_cons c cs), hbegins⟩

theorem root_of_readProlog {d d' : Doctype} {input : Input} {cells : List Cell}
    (h : readProlog d input = .ok (d', cells)) : cells <:+ input.cells ∧ BeginsTag cells := by
  unfold readProlog at h
  obtain ⟨⟨place, declared⟩, -, h⟩ := bind_eq_ok_iff.mp h
  dsimp only at h
  split at h
  · next root hroot =>
    cases h
    exact root_of_prologTokens (Prod.ext rfl hroot)
  all_goals cases h

end UiMarkup.Xml
