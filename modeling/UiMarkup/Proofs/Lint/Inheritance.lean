import UiMarkup.Lint.ThemeRules
import UiMarkup.Proofs.Lineage.FirstFault
import UiMarkup.Proofs.Outcome

/-!
What the rules report about inheritance. They resolve all classes, and all themes, and a call that
fails has one fault: so of the parents that are not defined at most one is reported, that of the
first entity that cannot be resolved.
-/

namespace UiMarkup

namespace Lineage

variable {α : Type}

/-- An entity lists a parent that is not there. -/
def Undefined (g : Lineage α) (child parent : String) : Prop :=
  g.Parent child parent ∧ g.entities.has parent = false

theorem not_complete_iff (g : Lineage α) :
    ¬ g.Complete ↔ ∃ child parent, g.Undefined child parent := by
  simp [Complete, Undefined]

theorem exists_fault_of_not_complete {g : Lineage α} (h : ¬ g.Complete) :
    ∃ fault, g.resolveAllFresh = .error fault := by
  cases hresult : g.resolveAllFresh with
  | error fault => exact ⟨fault, rfl⟩
  | ok r =>
      have hderives := (resolveAllFresh_isOk_iff g).mp ⟨r, hresult⟩
      exact absurd ((derives_iff g).mp hderives).1 h

/-- The fault says that a parent is not there. -/
def Fault.isNotFound : Fault → Bool
  | .notFound _ _ => true
  | _ => false

theorem Fault.TrueOf.undefined {g : Lineage α} {name : String} {fault : Fault}
    (h : fault.TrueOf g name) (hfault : fault.isNotFound = true) :
    ∃ parent child, fault = .notFound parent child ∧ g.Undefined child parent := by
  cases fault with
  | notFound parent child => exact ⟨parent, child, rfl, h.2⟩
  | _ => cases hfault

end Lineage

namespace Lint

open Lineage

/-! ### Resolving all entities -/

section

variable {α : Type} {g : Lineage α} {report : Fault → Finding} {isNotFound : Finding → Bool}
  {before findings after : List Finding}

/-- The findings report the first fault of a graph, whatever it is, and no other
parent that is not defined. -/
structure ReportsFirst (g : Lineage α) (report : Fault → Finding) (isNotFound : Finding → Bool)
    (findings : List Finding) : Prop where
  complete : g.Complete → findings.filter isNotFound = []
  first : ¬ g.Complete → ∃ name fault, g.FailsFirst g.sortedNames name fault ∧
    report fault ∈ findings ∧
    findings.filter isNotFound = if fault.isNotFound then [report fault] else []
  single : ¬ g.Complete → g.Acyclic → g.Bounded → ∃ parent child, g.Undefined child parent ∧
    findings.filter isNotFound = [report (.notFound parent child)]
  all_iff : g.Acyclic → g.Bounded →
    ((∀ parent child, g.Undefined child parent → report (.notFound parent child) ∈ findings) ↔
      ∀ parent child parent' child', g.Undefined child parent → g.Undefined child' parent' →
        report (.notFound parent child) = report (.notFound parent' child'))

/-- What is found where all entities are resolved: the fault of the call, and nothing else about a
parent that is not there. -/
structure ReportsFault (g : Lineage α) (report : Fault → Finding) (isNotFound : Finding → Bool)
    (findings : List Finding) : Prop where
  resolved : ∀ r, g.resolveAllFresh = .ok r → findings.filter isNotFound = []
  failed : ∀ fault, g.resolveAllFresh = .error fault →
    report fault ∈ findings ∧ findings.filter isNotFound = [report fault].filter isNotFound
  about : ∀ name fault, g.entities.has name = true → fault.TrueOf g name →
    isNotFound (report fault) = fault.isNotFound

namespace ReportsFault

/-- Findings about something else may come before and behind. -/
theorem surrounded (h : ReportsFault g report isNotFound findings)
    (hbefore : ∀ f ∈ before, isNotFound f = false) (hafter : ∀ f ∈ after, isNotFound f = false) :
    ReportsFault g report isNotFound (before ++ findings ++ after) := by
  have hnone {other : List Finding} (hother : ∀ f ∈ other, isNotFound f = false) :
      other.filter isNotFound = [] :=
    List.filter_eq_nil_iff.mpr (by simpa using hother)
  have hfilter : (before ++ findings ++ after).filter isNotFound = findings.filter isNotFound := by
    rw [List.filter_append, List.filter_append, hnone hbefore, hnone hafter,
      List.nil_append, List.append_nil]
  refine ⟨fun r hr => hfilter ▸ h.resolved r hr,
    fun fault hfault => ⟨?_, hfilter ▸ (h.failed fault hfault).2⟩, h.about⟩
  simp [(h.failed fault hfault).1]

theorem exists_failsFirst (h : ReportsFault g report isNotFound findings) {fault : Fault}
    (hfault : g.resolveAllFresh = .error fault) : ∃ name, g.entities.has name = true ∧
      g.FailsFirst g.sortedNames name fault ∧
      findings.filter isNotFound = if fault.isNotFound then [report fault] else [] := by
  obtain ⟨name, hname, hfirst⟩ := resolveAllFresh_failsFirst hfault
  refine ⟨name, hname, hfirst, ?_⟩
  rw [(h.failed fault hfault).2, List.filter_singleton, h.about name fault hname hfirst.trueOf,
    cond_eq_ite]

theorem complete (h : ReportsFault g report isNotFound findings) (hcomplete : g.Complete) :
    findings.filter isNotFound = [] := by
  cases hresult : g.resolveAllFresh with
  | ok r => exact h.resolved r hresult
  | error fault =>
      obtain ⟨name, -, hfirst, hfilter⟩ := h.exists_failsFirst hresult
      rw [hfilter, if_neg]
      intro hnotFound
      obtain ⟨parent, child, rfl, -⟩ := hfirst.trueOf.undefined hnotFound
      exact hcomplete.not_trueOf_notFound hfirst.trueOf

theorem single (h : ReportsFault g report isNotFound findings) (hincomplete : ¬ g.Complete)
    (hacyclic : g.Acyclic) (hbounded : g.Bounded) : ∃ parent child, g.Undefined child parent ∧
      findings.filter isNotFound = [report (.notFound parent child)] := by
  obtain ⟨fault, hresult⟩ := exists_fault_of_not_complete hincomplete
  obtain ⟨name, hname, hfirst, hfilter⟩ := h.exists_failsFirst hresult
  cases fault with
  | notFound parent child => exact ⟨parent, child, hfirst.trueOf.2, hfilter⟩
  | unknown missing => exact absurd hfirst.trueOf (not_trueOf_unknown hname)
  | circular chain => exact absurd hfirst.trueOf hacyclic.not_trueOf_circular
  | tooDeep first => exact absurd hfirst.trueOf hbounded.not_trueOf_tooDeep
  | emptyPath => exact hfirst.trueOf.elim

theorem isNotFound_report (h : ReportsFault g report isNotFound findings) {parent child : String}
    (hundefined : g.Undefined child parent) :
    isNotFound (report (.notFound parent child)) = true := by
  obtain ⟨e, entity, -⟩ := hundefined.1
  exact h.about child _ (has_of_get? entity) ⟨.refl, hundefined⟩

theorem all_iff (h : ReportsFault g report isNotFound findings) (hacyclic : g.Acyclic)
    (hbounded : g.Bounded) :
    (∀ parent child, g.Undefined child parent → report (.notFound parent child) ∈ findings) ↔
      ∀ parent child parent' child', g.Undefined child parent → g.Undefined child' parent' →
        report (.notFound parent child) = report (.notFound parent' child') := by
  have hsingle {parent child : String} (hundefined : g.Undefined child parent) :=
    h.single ((not_complete_iff g).mpr ⟨child, parent, hundefined⟩) hacyclic hbounded
  constructor
  · intro hall parent child parent' child' hfirst hsecond
    obtain ⟨_, _, -, hfilter⟩ := hsingle hfirst
    have hmem {parent child : String} (hundefined : g.Undefined child parent) :=
      List.mem_filter.mpr ⟨hall parent child hundefined, h.isNotFound_report hundefined⟩
    rw [hfilter] at hmem
    exact (List.mem_singleton.mp (hmem hfirst)).trans (List.mem_singleton.mp (hmem hsecond)).symm
  · intro hsame parent child hundefined
    obtain ⟨parent', child', hundefined', hfilter⟩ := hsingle hundefined
    rw [hsame parent child parent' child' hundefined hundefined']
    exact (List.mem_filter.mp (hfilter ▸ List.mem_singleton_self _)).1

theorem reportsFirst (h : ReportsFault g report isNotFound findings) :
    ReportsFirst g report isNotFound findings where
  complete := h.complete
  first hincomplete := by
    obtain ⟨fault, hresult⟩ := exists_fault_of_not_complete hincomplete
    obtain ⟨name, -, hfirst, hfilter⟩ := h.exists_failsFirst hresult
    exact ⟨name, fault, hfirst, (h.failed fault hresult).1, hfilter⟩
  single := h.single
  all_iff := h.all_iff

end ReportsFault

end

/-! ### Messages -/

/-- The message of a finding begins with some text. -/
def Finding.begins (text : String) (f : Finding) : Bool := text.toList.isPrefixOf f.message.toList

theorem prefix_append {first s : String} (h : first.toList <+: s.toList) (t : String) :
    first.toList <+: (s ++ t).toList := by
  rw [String.toList_append]
  exact h.trans (List.prefix_append _ _)

theorem Finding.begins_of_prefix {text first : String} {f : Finding}
    (h : first.toList <+: f.message.toList) (hlong : text.toList.length ≤ first.toList.length) :
    f.begins text = text.toList.isPrefixOf first.toList := by
  rw [Finding.begins, Bool.eq_iff_iff, List.isPrefixOf_iff_prefix, List.isPrefixOf_iff_prefix]
  exact ⟨fun hprefix => List.prefix_of_prefix_length_le hprefix h hlong,
    fun hprefix => hprefix.trans h⟩

theorem Context.begins_error {text first message rule : String} {span : Option Span}
    {suggestion : Option String} (c : Context) (h : first.toList <+: message.toList)
    (hlong : text.toList.length ≤ first.toList.length) :
    (c.error rule message span suggestion).begins text = text.toList.isPrefixOf first.toList :=
  Finding.begins_of_prefix h hlong

/-! ### Style classes -/

namespace StyleClassRule

/-- The finding says that a parent of a class is not defined. -/
def isNotFound : Finding → Bool := Finding.begins "Parent class "

/-- The finding for a fault of inheritance. -/
def report (c : Context) (fault : Fault) : Finding :=
  let e := c.document.classes.errorOf fault
  c.error id e.problem.message e.span e.problem.suggestion

theorem isNotFound_report (c : Context) {g : Lineage StyleClass} {name : String} {fault : Fault}
    (h : fault.TrueOf g name) : isNotFound (report c fault) = fault.isNotFound := by
  cases fault with
  | emptyPath => exact h.elim
  | unknown name =>
      have hmessage : "Style class '".toList <+: (report c (.unknown name)).message.toList :=
        prefix_append (prefix_append (List.prefix_refl _) _) _
      exact Finding.begins_of_prefix hmessage (by decide)
  | notFound parent child =>
      have hmessage : "Parent class '".toList <+:
          (report c (.notFound parent child)).message.toList :=
        prefix_append (prefix_append (List.prefix_refl _) _) _
      exact Finding.begins_of_prefix hmessage (by decide)
  | circular chain =>
      have hmessage : "Circular style class ".toList <+:
          (report c (.circular chain)).message.toList :=
        prefix_append (by decide) _
      exact Finding.begins_of_prefix hmessage (by decide)
  | tooDeep name =>
      have hmessage : "Style class inheritance ".toList <+:
          (report c (.tooDeep name)).message.toList :=
        prefix_append (prefix_append (prefix_append (prefix_append (by decide) _) _) _) _
      exact Finding.begins_of_prefix hmessage (by decide)

theorem isNotFound_valueFinding? {c : Context} {name : String} {f : Finding}
    (h : valueFinding? c name = some f) : isNotFound f = false := by
  rw [valueFinding?] at h
  split at h
  · cases h
  · split at h
    · cases h
    · obtain rfl := Option.some.inj h
      exact Context.begins_error c
        (prefix_append (prefix_append (prefix_append (List.prefix_refl _) _) _) _)
        (by decide : "Parent class ".toList.length ≤ "Invalid style class '".toList.length)

theorem inheritanceFindings_eq {c : Context} {fault : Fault}
    (h : c.document.classes.lineage.resolveAllFresh = .error fault) :
    inheritanceFindings c = [report c fault] := by
  rw [inheritanceFindings, ClassMap.checkInheritance, ClassMap.resolveAll, h]
  rfl

theorem inheritanceFindings_eq_nil {c : Context} {r : ClassMap}
    (h : c.document.classes.lineage.resolveAllFresh = .ok r) : inheritanceFindings c = [] := by
  rw [inheritanceFindings, ClassMap.checkInheritance, ClassMap.resolveAll, h]
  rfl

theorem isNotFound_of_mem_valueFindings {c : Context} :
    ∀ f ∈ c.document.classes.sortedNames.filterMap (valueFinding? c), isNotFound f = false := by
  intro f hf
  obtain ⟨name, -, hf⟩ := List.mem_filterMap.mp hf
  exact isNotFound_valueFinding? hf

theorem reportsFault (c : Context) :
    ReportsFault c.document.classes.lineage (report c) isNotFound (inheritanceFindings c) where
  resolved r hr := by
    rw [inheritanceFindings_eq_nil hr]
    rfl
  failed fault hfault := by
    rw [inheritanceFindings_eq hfault]
    exact ⟨List.mem_singleton_self _, rfl⟩
  about _ _ _ := isNotFound_report c

theorem reportsFirst (c : Context) : ∃ findings, rule.check c = .ok findings ∧
    ReportsFirst c.document.classes.lineage (report c) isNotFound findings := by
  have hvalues := isNotFound_of_mem_valueFindings (c := c)
  have h := ((reportsFault c).surrounded hvalues (List.forall_mem_nil _)).reportsFirst
  rw [List.append_nil] at h
  exact ⟨_, rfl, h⟩

end StyleClassRule

/-! ### Themes -/

namespace ThemeRule

/-- The finding says that a theme is not defined. -/
def isNotFound : Finding → Bool := Finding.begins "THEME_006"

/-- The finding for a fault of inheritance. -/
def report (c : Context) (fault : Fault) : Finding := ofError c (c.document.themes.errorOf fault)

theorem isNotFound_ofError (c : Context) (e : ThemeError) :
    isNotFound (ofError c e) = true ↔ e.problem.code = "THEME_006" := by
  have hmessage : e.problem.code.toList <+: (ofError c e).message.toList :=
    prefix_append (prefix_append (List.prefix_refl _) _) _
  have hlength : "THEME_006".toList.length = e.problem.code.toList.length := by
    cases e.problem <;> simp [ThemeProblem.code]
  rw [isNotFound, Finding.begins_of_prefix hmessage hlength.le, List.isPrefixOf_iff_prefix, eq_comm,
    ← String.toList_inj]
  exact ⟨fun hprefix => hprefix.eq_of_length hlength, fun heq => heq ▸ List.prefix_refl _⟩

theorem isNotFound_report (c : Context) {name : String} {fault : Fault}
    (known : c.document.themes.lineage.entities.has name = true)
    (h : fault.TrueOf c.document.themes.lineage name) :
    isNotFound (report c fault) = fault.isNotFound := by
  rw [Bool.eq_iff_iff, report, isNotFound_ofError]
  cases fault with
  | emptyPath => exact h.elim
  | unknown missing => exact absurd h (not_trueOf_unknown known)
  | notFound _ _ | circular _ | tooDeep _ =>
      simp [ThemeMap.errorOf, ThemeProblem.code, Fault.isNotFound]

/-- What is wrong with the values of a theme is not that a theme is missing. -/
theorem code_ne_of_mem_problems (t : Theme) : ∀ p ∈ t.problems, p.code ≠ "THEME_006" := by
  simp only [Theme.problems, List.forall_mem_append]
  refine ⟨⟨⟨⟨?_, ?_⟩, ?_⟩, ?_⟩, ?_⟩
  · split <;> simp [ThemeProblem.code]
  · intro p hp
    obtain ⟨role, -, hp⟩ := List.mem_flatMap.mp hp
    rw [Theme.colorErrors] at hp
    split at hp
    · cases hp
    · split at hp
      · cases hp
      · obtain rfl := List.mem_singleton.mp hp
        simp [ThemeProblem.code]
  · split <;> simp [ThemeProblem.code]
  · split
    · split <;> simp [ThemeProblem.code]
    · exact List.forall_mem_nil _
  · intro p hp
    obtain ⟨⟨tag, style⟩, -, hp⟩ := List.mem_flatMap.mp hp
    dsimp only at hp
    split at hp
    · cases hp
    · obtain rfl := List.mem_singleton.mp hp
      simp [ThemeProblem.code]

theorem isNotFound_of_mem_valueFindings {c : Context} {f : Finding} (h : f ∈ valueFindings c) :
    isNotFound f = false := by
  obtain ⟨name, -, h⟩ := List.mem_flatMap.mp h
  split at h
  · obtain ⟨e, he, rfl⟩ := List.mem_map.mp h
    obtain ⟨p, hp, rfl⟩ := List.mem_map.mp he
    exact Bool.eq_false_iff.mpr fun hcode =>
      code_ne_of_mem_problems _ p hp ((isNotFound_ofError c _).mp hcode)
  · cases h

theorem isNotFound_of_mem_startFindings {c : Context} {f : Finding} (h : f ∈ startFindings c) :
    isNotFound f = false := by
  rw [startFindings] at h
  split at h
  · cases h
  · dsimp only at h
    split at h
    · cases h
    · obtain rfl := List.mem_singleton.mp h
      exact Context.begins_error c
        (prefix_append (prefix_append (prefix_append (List.prefix_refl _) _) _) _)
        (by decide : "THEME_006".toList.length ≤ "Global theme '".toList.length)

/-- The check of what themes lack once they have inherited does not find that a theme is missing. -/
theorem code_ne_of_checkEach {m : ThemeMap} {e : ThemeError}
    (h : m.checkEach ThemeMap.checkInherited = .error e) : e.problem.code ≠ "THEME_006" := by
  obtain ⟨name, -, h⟩ := exists_of_forM_eq_error h
  cases ht : m.get? name with
  | none => simp [ht] at h
  | some t =>
      simp only [ht, Option.map_some, Option.getD_some, ThemeMap.checkInherited] at h
      split at h
      · obtain rfl := Except.error.inj h
        simp [ThemeProblem.code]
      · cases h

theorem isNotFound_of_mem_inheritanceFindings {c : Context} {r : ThemeMap}
    (hr : c.document.themes.lineage.resolveAllFresh = .ok r) {f : Finding}
    (h : f ∈ inheritanceFindings c) : isNotFound f = false := by
  rw [inheritanceFindings] at h
  split at h
  · cases h
  · split at h
    · cases h
    · next e he =>
      obtain rfl := List.mem_singleton.mp h
      have hcheck : ThemeMap.checkEach r ThemeMap.checkInherited = .error e := by
        rw [ThemeMap.checkInheritance, ThemeMap.resolveAll, hr] at he
        exact he
      exact Bool.eq_false_iff.mpr fun hcode =>
        code_ne_of_checkEach hcheck ((isNotFound_ofError c e).mp hcode)

theorem inheritanceFindings_eq {c : Context} {fault : Fault}
    (h : c.document.themes.lineage.resolveAllFresh = .error fault) :
    inheritanceFindings c = [report c fault] := by
  obtain ⟨name, known, -⟩ := resolveAllFresh_failsFirst h
  have hnonempty : c.document.themes.isEmpty = false := by
    obtain ⟨t, ht⟩ := get?_of_has known
    exact Bool.eq_false_iff.mpr fun hempty => by
      have := OrderedMap.mem_of_get?_eq_some ht
      rw [ThemeMap.lineage, List.isEmpty_iff.mp hempty] at this
      cases this
  rw [inheritanceFindings, hnonempty, ThemeMap.checkInheritance, ThemeMap.resolveAll, h]
  rfl

theorem reportsFault (c : Context) :
    ReportsFault c.document.themes.lineage (report c) isNotFound (inheritanceFindings c) where
  resolved _ hr := List.filter_eq_nil_iff.mpr fun _ hf => by
    simp [isNotFound_of_mem_inheritanceFindings hr hf]
  failed fault hfault := by
    rw [inheritanceFindings_eq hfault]
    exact ⟨List.mem_singleton_self _, rfl⟩
  about _ _ known := isNotFound_report c known

theorem reportsFirst (c : Context) : ∃ findings, rule.check c = .ok findings ∧
    ReportsFirst c.document.themes.lineage (report c) isNotFound findings := by
  have hvalues (f : Finding) := isNotFound_of_mem_valueFindings (c := c) (f := f)
  have hstart (f : Finding) := isNotFound_of_mem_startFindings (c := c) (f := f)
  exact ⟨_, rfl, ((reportsFault c).surrounded hvalues hstart).reportsFirst⟩

end ThemeRule

/-- Of all parents of classes that are not defined the rules report at most
one, and so for themes. -/
theorem check_reportsFirst (c : Context) :
    (∃ findings, StyleClassRule.rule.check c = .ok findings ∧
      ReportsFirst c.document.classes.lineage (StyleClassRule.report c)
        StyleClassRule.isNotFound findings) ∧
    ∃ findings, ThemeRule.rule.check c = .ok findings ∧
      ReportsFirst c.document.themes.lineage (ThemeRule.report c) ThemeRule.isNotFound findings :=
  ⟨StyleClassRule.reportsFirst c, ThemeRule.reportsFirst c⟩

/-! ### Two classes without their parents -/

/-- Two classes, each with a parent that is not defined. -/
def ghosts : Document where
  root := { kind := .builtin .column, span := .origin }
  classes := [("a", { name := "a", parents := ["x"] }), ("b", { name := "b", parents := ["y"] })]

theorem resolveAllFresh_ghosts :
    ghosts.classes.lineage.resolveAllFresh = .error (.notFound "x" "a") := by
  cbv

theorem undefined_ghosts :
    ghosts.classes.lineage.Undefined "a" "x" ∧ ghosts.classes.lineage.Undefined "b" "y" :=
  ⟨⟨⟨_, rfl, List.mem_singleton_self _⟩, rfl⟩, ⟨_, rfl, List.mem_singleton_self _⟩, rfl⟩

/-- The parent of the second class is not reported. -/
theorem not_reports_ghosts {c : Context} (h : c.document = ghosts) : ∃ findings,
    StyleClassRule.rule.check c = .ok findings ∧
      StyleClassRule.report c (.notFound "x" "a") ∈ findings ∧
      StyleClassRule.report c (.notFound "y" "b") ∉ findings := by
  have hfindings := StyleClassRule.inheritanceFindings_eq (h ▸ resolveAllFresh_ghosts)
  refine ⟨_, rfl, ?_, ?_⟩
  · rw [hfindings]
    exact List.mem_append_right _ (List.mem_singleton_self _)
  · rw [hfindings, List.mem_append, List.mem_singleton, not_or]
    have hnotFound : StyleClassRule.isNotFound (StyleClassRule.report c (.notFound "y" "b")) =
        true :=
      StyleClassRule.isNotFound_report c ⟨.refl, undefined_ghosts.2⟩
    refine ⟨fun hvalue => ?_, fun hsame => ?_⟩
    · rw [StyleClassRule.isNotFound_of_mem_valueFindings _ hvalue] at hnotFound
      cases hnotFound
    · exact absurd (congrArg Finding.message hsame)
        (by decide :
          "Parent class '" ++ "y" ++ "' not found" ≠ "Parent class '" ++ "x" ++ "' not found")

end Lint
end UiMarkup
