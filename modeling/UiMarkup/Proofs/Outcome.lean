import Mathlib

/-!
Computations that may fail: when they end well, what loops of them come to, and how
they end in either case.
-/

namespace UiMarkup

variable {ε α β : Type}

/-- A computation in steps ends well when each step does. -/
theorem bind_eq_ok_iff {x : Except ε α} {f : α → Except ε β} {b : β} :
    (x >>= f) = .ok b ↔ ∃ a, x = .ok a ∧ f a = .ok b := by
  cases x <;> simp [Bind.bind, Except.bind]

/-- What a computation returns can be compared, also where its errors cannot be. -/
instance decidableEqOk [DecidableEq α] (x : Except ε α) (a : α) : Decidable (x = .ok a) :=
  match x with
  | .ok b => decidable_of_iff (b = a) (by simp)
  | .error _ => .isFalse (by simp)

theorem map_eq_ok_iff {x : Except ε α} {f : α → β} {b : β} :
    x.map f = .ok b ↔ ∃ a, x = .ok a ∧ f a = b := by
  cases x <;> simp [Except.map]

theorem pure_eq_ok_iff {a b : α} : (pure a : Except ε α) = .ok b ↔ a = b := by
  change Except.ok a = Except.ok b ↔ _
  simp

theorem mapError_eq_ok_iff {δ : Type} {x : Except ε α} {f : ε → δ} {a : α} :
    x.mapError f = .ok a ↔ x = .ok a := by
  cases x <;> simp [Except.mapError]

theorem ite_error_eq_ok_iff {p : Prop} [Decidable p] {e : ε} {a b : α} :
    (if p then .ok a else .error e) = Except.ok b ↔ p ∧ a = b := by
  split <;> simp_all

/-- Checks in a row pass when each of them does. -/
theorem andThen_eq_ok_iff {a b : Except ε Unit} :
    (a >>= fun _ => b) = .ok () ↔ a = .ok () ∧ b = .ok () := by
  cases a <;> simp [bind, Except.bind]

theorem failIf_eq_ok_iff {c : Bool} {fault : ε} :
    (if c then throw fault else pure () : Except ε Unit) = .ok () ↔ c = false := by
  cases c <;> simp [throw, throwThe, MonadExceptOf.throw, pure, Except.pure]

/-! ### Loops -/

theorem forM_eq_ok_iff {f : α → Except ε Unit} {l : List α} :
    l.forM f = .ok () ↔ ∀ a ∈ l, f a = .ok () := by
  induction l with
  | nil => simp [List.forM, pure, Except.pure]
  | cons a l ih =>
      rw [List.forall_mem_cons, ← ih]
      exact andThen_eq_ok_iff

theorem exists_of_forM_eq_error {f : α → Except ε Unit} {l : List α} {e : ε}
    (h : l.forM f = .error e) : ∃ a ∈ l, f a = .error e := by
  induction l with
  | nil => cases h
  | cons a l ih =>
      change (f a >>= fun _ => l.forM f) = .error e at h
      cases ha : f a with
      | error e' =>
          rw [ha] at h
          obtain rfl := Except.error.inj h
          exact ⟨a, List.mem_cons_self, ha⟩
      | ok _ =>
          rw [ha] at h
          obtain ⟨b, hb, hfb⟩ := ih h
          exact ⟨b, List.mem_cons_of_mem a hb, hfb⟩

/-- A loop ends well when each of its steps is allowed. -/
theorem foldlM_eq_ok_iff {f : β → α → Except ε β} {allowed : α → Prop} {g : β → α → β}
    (step : ∀ b a b', f b a = .ok b' ↔ allowed a ∧ g b a = b') {l : List α} {b b' : β} :
    l.foldlM f b = .ok b' ↔ (∀ a ∈ l, allowed a) ∧ l.foldl g b = b' := by
  induction l generalizing b with
  | nil => simp [pure_eq_ok_iff]
  | cons a l ih =>
      rw [List.foldlM_cons, bind_eq_ok_iff, List.forall_mem_cons, List.foldl_cons]
      constructor
      · rintro ⟨between, hstep, h⟩
        obtain ⟨ha, rfl⟩ := (step _ _ _).mp hstep
        obtain ⟨hl, h⟩ := ih.mp h
        exact ⟨⟨ha, hl⟩, h⟩
      · rintro ⟨⟨ha, hl⟩, h⟩
        exact ⟨_, (step _ _ _).mpr ⟨ha, rfl⟩, ih.mpr ⟨hl, h⟩⟩

/-- Each value of a list was got in one of the steps. -/
theorem exists_mem_of_mapM {f : α → Except ε β} {l : List α} {bs : List β} (h : l.mapM f = .ok bs) :
    ∀ b ∈ bs, ∃ a ∈ l, f a = .ok b := by
  induction l generalizing bs with
  | nil =>
      obtain rfl := Except.ok.inj h
      simp
  | cons a l ih =>
      rw [List.mapM_cons] at h
      obtain ⟨b, hb, h⟩ := bind_eq_ok_iff.mp h
      obtain ⟨bs', hbs', h⟩ := bind_eq_ok_iff.mp h
      obtain rfl := Except.ok.inj h
      intro b' hb'
      obtain rfl | hb' := List.mem_cons.mp hb'
      · exact ⟨a, List.mem_cons_self, hb⟩
      · obtain ⟨a', ha', heq⟩ := ih hbs' b' hb'
        exact ⟨a', List.mem_cons_of_mem a ha', heq⟩

theorem length_of_mapM {f : α → Except ε β} {l : List α} {bs : List β} (h : l.mapM f = .ok bs) :
    bs.length = l.length := by
  induction l generalizing bs with
  | nil =>
      obtain rfl := Except.ok.inj h
      rfl
  | cons a l ih =>
      rw [List.mapM_cons] at h
      obtain ⟨b, -, h⟩ := bind_eq_ok_iff.mp h
      obtain ⟨bs', hbs', h⟩ := bind_eq_ok_iff.mp h
      obtain rfl := Except.ok.inj h
      rw [List.length_cons, List.length_cons, ih hbs']

/-! ### Both endings -/

/-- What is returned meets one condition, and the fault another. -/
inductive Ends (good : α → Prop) (bad : ε → Prop) : Except ε α → Prop
  | ok {a : α} : good a → Ends good bad (.ok a)
  | error {f : ε} : bad f → Ends good bad (.error f)

namespace Ends

variable {good : α → Prop} {good' : β → Prop} {bad : ε → Prop}

@[simp] theorem ok_iff {a : α} : Ends good bad (.ok a) ↔ good a :=
  ⟨fun | .ok h => h, .ok⟩

@[simp] theorem pure_iff {a : α} : Ends good bad (pure a) ↔ good a := ok_iff

@[simp] theorem error_iff {f : ε} : Ends good bad (.error f) ↔ bad f :=
  ⟨fun | .error h => h, .error⟩

theorem bind {x : Except ε α} {f : α → Except ε β} (hx : Ends good bad x)
    (hf : ∀ a, good a → Ends good' bad (f a)) : Ends good' bad (x >>= f) := by
  cases hx with
  | ok h => exact hf _ h
  | error h => exact .error h

theorem mono {x : Except ε α} {better : α → Prop} (h : Ends good bad x)
    (hmono : ∀ a, good a → better a) : Ends better bad x := by
  cases h with
  | ok h => exact .ok (hmono _ h)
  | error h => exact .error h

theorem mapError {δ : Type} {worse : δ → Prop} {f : ε → δ} {x : Except ε α} (h : Ends good bad x)
    (hf : ∀ fault, bad fault → worse (f fault)) : Ends good worse (x.mapError f) := by
  cases h with
  | ok h => exact .ok h
  | error h => exact .error (hf _ h)

/-- Any computation ends somehow. -/
theorem any (x : Except ε α) : Ends (fun _ => True) (fun _ => True) x := by
  cases x <;> simp

theorem foldlM {f : β → α → Except ε β} (h : ∀ b a, Ends (fun _ => True) bad (f b a)) (b : β)
    (l : List α) : Ends (fun _ => True) bad (l.foldlM f b) := by
  induction l generalizing b with
  | nil => simp
  | cons a l ih => exact (h b a).bind fun b' _ => ih b'

/-- A list of values that all are got has what each of its steps ensures. -/
theorem mapM {f : α → Except ε β} {good : α → Prop} {l : List α}
    (h : ∀ a ∈ l, Ends (fun _ => good a) bad (f a)) :
    Ends (fun _ => ∀ a ∈ l, good a) bad (l.mapM f) := by
  induction l with
  | nil => simp [List.mapM_nil]
  | cons a l ih =>
      rw [List.mapM_cons]
      refine (h a (by simp)).bind fun b hb => ?_
      refine (ih fun a' ha' => h a' (List.mem_cons_of_mem a ha')).bind fun bs hbs => ?_
      exact pure_iff.mpr (List.forall_mem_cons.mpr ⟨hb, hbs⟩)

end Ends

end UiMarkup
