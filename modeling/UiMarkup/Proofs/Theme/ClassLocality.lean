import UiMarkup.Proofs.Lineage.Faults
import UiMarkup.Proofs.Lineage.Locality
import UiMarkup.Theme.StyleClass

/-!
A style class resolves to what the classes make of it that it inherits from, whatever else is
defined, and when it cannot be resolved its error names such classes only.
-/

namespace UiMarkup.ClassMap

variable {m m' : ClassMap} {name : String}

theorem spanOf_congr (same : m'.get? name = m.get? name) : m'.spanOf name = m.spanOf name := by
  rw [spanOf, spanOf, same]

/-- A fault that is true of a name is placed at a class that the name reaches. -/
theorem errorOf_congr (same : ∀ x, m.lineage.Reaches name x → m'.get? x = m.get? x)
    {fault : Lineage.Fault} (holds : fault.TrueOf m.lineage name) :
    m'.errorOf fault = m.errorOf fault := by
  cases fault with
  | unknown missing => rfl
  | notFound parent child =>
      obtain ⟨reached, -⟩ := holds
      rw [errorOf, errorOf, spanOf_congr (same child reached)]
  | circular chain =>
      obtain ⟨path, again, rfl, start, -⟩ := holds
      have first : (path ++ [again]).head? = some name := by rw [List.head?_append, start]; rfl
      rw [errorOf, errorOf, first, Option.bind_some, Option.bind_some,
        spanOf_congr (same name .refl)]
  | tooDeep first =>
      obtain ⟨reached, -⟩ := holds
      rw [errorOf, errorOf, spanOf_congr (same first reached)]
  | emptyPath => rfl

/-- Two maps that have the same classes, and lack the same names, among those that a name reaches
resolve the name to the same class or refuse it with the same error. -/
theorem resolve_eq_of_sameFrom (same : ∀ x, m.lineage.Reaches name x → m'.get? x = m.get? x) :
    m'.resolve name = m.resolve name := by
  have answer : m'.lineage.resolveFresh name = m.lineage.resolveFresh name :=
    Lineage.resolveFresh_withEntities same
  rw [resolve, resolve, answer]
  cases result : m.lineage.resolveFresh name with
  | ok c => rfl
  | error fault =>
      exact congrArg Except.error (errorOf_congr same (Lineage.trueOf_of_resolveFresh _ _ result))

/-- A card on a base, and a torn one that lacks a second base. -/
def cards : ClassMap :=
  [("card", { name := "card", parents := ["base"], layout := some { zIndex := some 1 } }),
    ("torn", { name := "torn", parents := ["card", "ghost"], span := ⟨7, 9, 1, 8⟩ }),
    ("base", { name := "base", style := { background := some (.image "base.png" .fill) } })]

/-- The same in another order, among classes that extend themselves, each other,
or none that is there. -/
def crowdedCards : ClassMap :=
  ("loop", { name := "loop", parents := ["loop", "torn"] }) :: List.reverse cards ++
    [("knot", { name := "knot", parents := ["loop", "nowhere"] })]

theorem sameFrom_cards {x : String} (reached : cards.lineage.Reaches "torn" x) :
    crowdedCards.get? x = cards.get? x := by
  have lists : ∀ p ∈ cards, ∀ q ∈ p.2.parents, q ∈ ["card", "ghost", "base"] := by decide
  have mem : x ∈ ["torn", "card", "ghost", "base"] := by
    rcases Relation.ReflTransGen.cases_tail reached with rfl | ⟨child, _, c, found, link⟩
    · exact List.mem_cons_self
    · exact List.mem_cons_of_mem _ (lists _ (OrderedMap.mem_of_get?_eq_some found) _ link)
  simp only [List.mem_cons, List.not_mem_nil, or_false] at mem
  rcases mem with rfl | rfl | rfl | rfl <;> rfl

theorem resolve_eq_of_sameFrom_cards :
    ((∀ x, cards.lineage.Reaches "torn" x → crowdedCards.get? x = cards.get? x) ∧
      crowdedCards.resolve "torn" = cards.resolve "torn" ∧
      cards.resolve "torn" = .error ⟨.parentNotFound "ghost" "torn", some ⟨7, 9, 1, 8⟩⟩) ∧
    (∀ x, cards.lineage.Reaches "card" x → crowdedCards.get? x = cards.get? x) ∧
      crowdedCards.resolve "card" = cards.resolve "card" ∧ ∃ c, cards.resolve "card" = .ok c := by
  have torn : ∀ x, cards.lineage.Reaches "torn" x → crowdedCards.get? x = cards.get? x :=
    fun _ => sameFrom_cards
  have link : cards.lineage.Parent "torn" "card" := ⟨_, rfl, List.mem_cons_self⟩
  have card : ∀ x, cards.lineage.Reaches "card" x → crowdedCards.get? x = cards.get? x :=
    fun x reached => torn x (.head link reached)
  exact ⟨⟨torn, resolve_eq_of_sameFrom torn, by cbv⟩, card, resolve_eq_of_sameFrom card, _, by cbv⟩

end UiMarkup.ClassMap
