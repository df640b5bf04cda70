import Mathlib
import UiMarkup.Proofs.Document.Provenance
import UiMarkup.Proofs.Lint.Report

/-!
The findings of a check are what the rules find that do not fail, in the order of their positions;
findings at one position stay in the order of the rules. So a rule that fails takes nothing away
from the others, and another order of the rules is only seen among findings at one position.
-/

namespace UiMarkup.Lint

/-! ### Rules -/

/-- What a rule finds; a rule that fails finds nothing. -/
def Rule.found (c : Context) (r : Rule) : List Finding :=
  match r.check c with
  | .ok findings => findings
  | .error _ => []

/-- The entry for a rule that fails. -/
def Rule.failure? (c : Context) (r : Rule) : Option RuleFailure :=
  match r.check c with
  | .ok _ => none
  | .error reason => some ⟨r.id, reason⟩

theorem runRules_eq_found (c : Context) (rules : List Rule) :
    runRules c rules = (rules.flatMap (Rule.found c), rules.filterMap (Rule.failure? c)) := by
  induction rules with
  | nil => rfl
  | cons r rules ih =>
      rw [runRules, ih, List.flatMap_cons]
      cases h : r.check c with
      | ok findings => simp [Rule.found, Rule.failure?, h]
      | error reason => simp [Rule.found, Rule.failure?, h]

theorem found_eq_nil_of_failure {c : Context} {r : Rule} (h : r.failure? c ≠ none) :
    r.found c = [] := by
  cases hr : r.check c with
  | ok findings => simp [Rule.failure?, hr] at h
  | error reason => simp [Rule.found, hr]

/-- Rules that fail may as well be left out. -/
theorem flatMap_found_filter (c : Context) (rules : List Rule) :
    (rules.filter fun r => (r.failure? c).isNone).flatMap (Rule.found c) =
      rules.flatMap (Rule.found c) := by
  induction rules with
  | nil => rfl
  | cons r rules ih =>
      rw [List.filter_cons, List.flatMap_cons]
      split
      · rw [List.flatMap_cons, ih]
      · rename_i h
        rw [found_eq_nil_of_failure (by simpa using h), ih, List.nil_append]

/-! ### Positions -/

/-- Line and column, in this order; zero stands for what is missing. -/
def Finding.position (f : Finding) : ℤ ×ₗ ℤ := toLex (f.line.getD 0, f.column.getD 0)

theorem Finding.notAfter_iff (f g : Finding) : f.notAfter g = true ↔ f.position ≤ g.position := by
  simp [notAfter, position, Prod.Lex.toLex_le_toLex]

/-- Findings in the order of their positions; those at one position are in the order in
which they are given. -/
structure Ordered (given findings : List Finding) : Prop where
  perm : findings.Perm given
  ascending : findings.Pairwise fun f g => f.position ≤ g.position
  stable : ∀ p, findings.filter (·.position = p) = given.filter (·.position = p)

/-- The same findings, where only those at one position may have changed places. -/
structure Reordered (findings other : List Finding) : Prop where
  positions : other.map Finding.position = findings.map Finding.position
  perm : ∀ p, (other.filter (·.position = p)).Perm (findings.filter (·.position = p))

theorem ordered_mergeSort (given : List Finding) :
    Ordered given (given.mergeSort Finding.notAfter) := by
  have htrans (f g h : Finding) : f.notAfter g → g.notAfter h → f.notAfter h := by
    simp only [Finding.notAfter_iff]
    exact le_trans
  have htotal (f g : Finding) : (f.notAfter g || g.notAfter f) = true := by
    simp only [Bool.or_eq_true, Finding.notAfter_iff]
    exact le_total _ _
  have hperm := List.mergeSort_perm given Finding.notAfter
  refine ⟨hperm, ?_, fun p => ?_⟩
  · refine (List.pairwise_mergeSort htrans htotal given).imp fun {f g} h => ?_
    exact (f.notAfter_iff g).mp h
  · -- those at one position are in order before the sort, so they are not parted by it
    have hequal : (given.filter (·.position = p)).Pairwise fun f g => f.notAfter g := by
      refine List.pairwise_of_forall_mem_list fun f hf g hg => ?_
      have hf : f.position = p := by simpa using (List.mem_filter.mp hf).2
      have hg : g.position = p := by simpa using (List.mem_filter.mp hg).2
      exact (f.notAfter_iff g).mpr (hf.trans hg.symm).le
    have hsub :=
      (List.sublist_mergeSort htrans htotal hequal List.filter_sublist).filter (·.position = p)
    simp only [List.filter_filter, Bool.and_self] at hsub
    exact (hsub.eq_of_length (hperm.filter _).length_eq.symm).symm

theorem Ordered.reordered {given given' findings findings' : List Finding}
    (h : Ordered given findings) (h' : Ordered given' findings') (hperm : given'.Perm given) :
    Reordered findings findings' := by
  refine ⟨?_, fun p => ?_⟩
  · have hsame : (findings'.map Finding.position).Perm (findings.map Finding.position) :=
      ((h'.perm.trans hperm).trans h.perm.symm).map _
    refine hsame.eq_of_pairwise (fun _ _ _ _ => le_antisymm) ?_ ?_
    · exact List.pairwise_map.mpr h'.ascending
    · exact List.pairwise_map.mpr h.ascending
  · rw [h'.stable, h.stable]
    exact hperm.filter _

/-! ### Results -/

/-- A result is a success exactly when it has no error and no failure to show. -/
def Result.CountsAll (r : Result) : Prop :=
  r.isSuccess = true ↔ r.errorCount + r.failures.length = 0

theorem unreadable_countsAll (text : List Char) (path : String) (e : ParseError) :
    (unreadable text path e).CountsAll := by
  simp [Result.CountsAll, Result.isSuccess, unreadable, Result.errorCount, Finding.isError]

theorem examine_countsAll (c : Context) (path : String) (rules : List Rule) :
    (examine c path rules).CountsAll := by
  simp [Result.CountsAll, Result.isSuccess, examine, and_comm]

theorem examine_ordered (c : Context) (path : String) (rules : List Rule) :
    Ordered (rules.flatMap (Rule.found c)) (examine c path rules).findings := by
  rw [examine, runRules_eq_found]
  exact ordered_mergeSort _

theorem examine_failures (c : Context) (path : String) (rules : List Rule) :
    (examine c path rules).failures = rules.filterMap (Rule.failure? c) := by
  rw [examine, runRules_eq_found]

theorem examine_filter (c : Context) (path : String) (rules : List Rule) :
    (examine c path (rules.filter fun r => (r.failure? c).isNone)).findings =
      (examine c path rules).findings := by
  rw [examine, examine, runRules_eq_found, runRules_eq_found, flatMap_found_filter]

/-- What the rules are given of a document that can be read. -/
def contextOf (settings : Settings) (bytes : List UInt8) (m : Markup) (document : Document) :
    Context :=
  ⟨Text.decodeUtf8 bytes, document, m, settings⟩

/-- The check of a document that can be read has what the rules find in the order of positions, and
all failures in the order of the rules. Without the rules that fail it finds the same, and with the
rules in another order it finds the same up to places within a position. A document with an error
has this one finding. -/
theorem check_ordered (rules : List Rule) (settings : Settings) (custom : List String)
    (bytes : List UInt8) (path : String) :
    (∀ document notices, Document.read custom bytes = (.ok document, notices) →
      ∃ m c result, Markup.read bytes = .ok m ∧ c = contextOf settings bytes m document ∧
        check rules settings custom bytes path = (.ok result, notices) ∧
        Ordered (rules.flatMap (Rule.found c)) result.findings ∧
        result.failures = rules.filterMap (Rule.failure? c) ∧
        (∃ other, check (rules.filter fun r => (r.failure? c).isNone) settings custom bytes path =
          (.ok other, notices) ∧ other.findings = result.findings) ∧
        (∀ rules', rules'.Perm rules → ∃ other, check rules' settings custom bytes path =
          (.ok other, notices) ∧ Reordered result.findings other.findings) ∧
        result.CountsAll) ∧
    ∀ e notices, Document.read custom bytes = (.error (.parse e), notices) →
      ∃ result, check rules settings custom bytes path = (.ok result, notices) ∧
        (∃ f, result.findings = [f] ∧ f.rule = parseRule ∧ f.severity = .error) ∧
        result.CountsAll := by
  refine ⟨fun document notices hread => ?_, fun e notices hread => ?_⟩
  · obtain ⟨m, hm, -⟩ := Document.exists_markup_of_read hread
    have hcheck (rules : List Rule) := check_of_read_eq_ok hm hread rules settings path
    have hordered := examine_ordered (contextOf settings bytes m document) path
    refine ⟨m, _, _, hm, rfl, hcheck rules, hordered rules, examine_failures _ path rules, ?_,
      fun rules' hperm => ?_, examine_countsAll _ path rules⟩
    · exact ⟨_, hcheck _, examine_filter _ path rules⟩
    · exact ⟨_, hcheck rules', (hordered rules).reordered (hordered rules') (hperm.flatMap_right _)⟩
  · refine ⟨_, check_of_read_eq_error hread rules settings path, ?_, unreadable_countsAll _ path e⟩
    obtain ⟨context, hfindings⟩ := unreadable_reports (Text.decodeUtf8 bytes) path e
    exact ⟨_, hfindings, rfl, rfl⟩

/-! ### Three rules and one that fails -/

def remark (id : String) (line : Option Int) : Finding :=
  { rule := id, message := "Remark", severity := .hint, line := line, column := line }

def remarkRule (id : String) (line : Option Int) : Rule :=
  ⟨id, id, "Make a remark", fun _ => .ok [remark id line]⟩

def failingRule : Rule := ⟨"failing", "failing", "Fail", fun _ => .error "out of luck"⟩

def mixedRules : List Rule :=
  [remarkRule "last" (some 2), failingRule, remarkRule "first" none, remarkRule "behind" (some 2)]

theorem check_ordered_mixed :
    ∃ result notices, check mixedRules {} [] sumButton untitled = (.ok result, notices) ∧
      Ordered [remark "last" (some 2), remark "first" none, remark "behind" (some 2)]
        result.findings ∧
      result.failures = [⟨"failing", "out of luck"⟩] ∧ ¬ result.isSuccess ∧
      (∃ e notices, Document.read [] [] = (.error (.parse e), notices)) ∧
      ∃ result notices f, check mixedRules {} [] [] untitled = (.ok result, notices) ∧
        result.findings = [f] ∧ f.rule = parseRule := by
  have hread : Document.read [] sumButton = (.ok sumButtonDocument, []) := by
    rw [Document.read, read_sumButton]
    exact ofMarkup_sumButton
  have hempty : ∃ e notices, Document.read [] [] = (.error (.parse e), notices) := by
    refine ⟨⟨.xml .noElement, ⟨0, 0, 1, 1⟩⟩, [], ?_⟩
    cbv
  obtain ⟨_, _, result, -, -, hcheck, hordered, hfailures, -, -, hcounts⟩ :=
    (check_ordered mixedRules {} [] sumButton untitled).1 _ _ hread
  obtain ⟨e, notices, hparse⟩ := hempty
  obtain ⟨result', hcheck', ⟨f, hf, hrule, -⟩, -⟩ :=
    (check_ordered mixedRules {} [] [] untitled).2 e notices hparse
  refine ⟨result, [], hcheck, hordered, hfailures, ?_, ⟨e, notices, hparse⟩, result', notices,
    f, hcheck', hf, hrule⟩
  rw [Result.CountsAll, hfailures] at hcounts
  simp [hcounts, mixedRules, remarkRule, failingRule, Rule.failure?]

end UiMarkup.Lint
