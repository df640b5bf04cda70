import UiMarkup.Proofs.Lint.Findings
import UiMarkup.Proofs.Source.Lines

/-!
The lines that findings show. A finding counts its line by the line feeds of the source and shows
the line that has this number in an editor. This is the line of the finding as long as nothing else
ends a line before it; otherwise it is a part of this line or of one before it.
-/

namespace UiMarkup.Lint

open Text

/-! ### Findings -/

/-- If the finding shows a line, it is the one that has the number of its own line in an editor. -/
def Finding.Shown (text : List Char) (f : Finding) : Prop :=
  ∀ shown, f.context = some shown → ∃ line, f.line = some line ∧ shownLine? text line = some shown

theorem Context.finding_shown (c : Context) {rule message : String} {span : Option Span}
    {suggestion : Option String} {severity : Severity} :
    (c.finding rule message span suggestion severity).Shown c.text := by
  intro shown h
  obtain ⟨s, hspan, h⟩ := Option.bind_eq_some_iff.mp (show c.lineOf? span = some shown from h)
  refine ⟨s.line, by simp [finding, hspan], ?_⟩
  split at h
  · next l hline =>
    split at h
    · cases h
    · rw [shownLine?, hline]
      exact h
  · cases h

theorem Context.error_shown (c : Context) {rule message : String} {span : Option Span}
    {suggestion : Option String} :
    (c.error rule message span suggestion).Shown c.text := c.finding_shown

theorem unreadable_shown (text : List Char) (path : String) (e : ParseError) :
    ∀ f ∈ (unreadable text path e).findings, f.Shown text := by
  intro f hf
  obtain rfl := List.mem_singleton.mp hf
  exact fun shown h => ⟨_, rfl, h⟩

/-! ### Rules -/

/-- All findings show their lines. -/
def AllShown (c : Context) (findings : List Finding) : Prop := ∀ f ∈ findings, f.Shown c.text

/-- A rule finds nothing that does not show its line. -/
def Rule.Shows (r : Rule) : Prop := ∀ c findings, r.check c = .ok findings → AllShown c findings

section

variable {α : Type} {c : Context} {a b : List Finding} {f : Finding} {xs : List α}

theorem AllShown.nil : AllShown c [] := List.forall_mem_nil _

theorem AllShown.single (h : f.Shown c.text) : AllShown c [f] := List.forall_mem_singleton.mpr h

theorem AllShown.append (ha : AllShown c a) (hb : AllShown c b) : AllShown c (a ++ b) :=
  List.forall_mem_append.mpr ⟨ha, hb⟩

theorem AllShown.map {g : α → Finding} (h : ∀ x, (g x).Shown c.text) : AllShown c (xs.map g) :=
  List.forall_mem_map.mpr fun x _ => h x

theorem AllShown.flatMap {g : α → List Finding} (h : ∀ x, AllShown c (g x)) :
    AllShown c (xs.flatMap g) := by
  intro f hf
  obtain ⟨x, -, hf⟩ := List.mem_flatMap.mp hf
  exact h x f hf

theorem AllShown.filterMap {g : α → Option Finding} (h : ∀ x, AllShown c (g x).toList) :
    AllShown c (xs.filterMap g) := by
  rw [List.filterMap_eq_flatMap_toList]
  exact .flatMap h

end

theorem themeRule_shows : ThemeRule.rule.Shows := by
  rintro c _ ⟨⟩
  refine .append (.append (.flatMap fun name => ?_) ?_) ?_
  · split
    · exact .map fun e => c.error_shown
    · exact .nil
  · rw [ThemeRule.inheritanceFindings]
    split
    · exact .nil
    · split
      · exact .nil
      · exact .single c.error_shown
  · rw [ThemeRule.startFindings]
    split
    · exact .nil
    · dsimp only
      split
      · exact .nil
      · exact .single c.error_shown

theorem styleClassRule_shows : StyleClassRule.rule.Shows := by
  rintro c _ ⟨⟩
  refine .append (.filterMap fun name => ?_) ?_
  · rw [StyleClassRule.valueFinding?]
    split
    · exact .nil
    · split
      · exact .nil
      · exact .single c.error_shown
  · rw [StyleClassRule.inheritanceFindings]
    split
    · exact .nil
    · exact .single c.error_shown

theorem referenceRule_shows : ReferenceRule.rule.Shows := by
  rintro c _ ⟨⟩
  refine .flatMap fun w => .append (.filterMap fun name => ?_) ?_
  · rw [ReferenceRule.classFinding?]
    split
    · exact .nil
    · exact .single c.error_shown
  · rw [ReferenceRule.themeFindings]
    split
    · dsimp only
      split
      · exact .nil
      · exact .single c.error_shown
    · exact .nil

theorem widgetAttributeRule_shows : WidgetAttributeRule.rule.Shows := by
  rintro c _ ⟨⟩
  refine .flatMap fun w => ?_
  rw [WidgetAttributeRule.widgetFindings]
  split
  · exact .nil
  · refine .append (.append (.filterMap fun name => ?_) (.filterMap fun name => ?_))
      (.filterMap fun e => ?_)
    · rw [WidgetAttributeRule.unknownFinding?]
      split
      · exact .nil
      · exact .single c.error_shown
    · rw [WidgetAttributeRule.missingFinding?]
      split
      · exact .nil
      · exact .single c.error_shown
    · rw [WidgetAttributeRule.eventFinding?]
      split
      · exact .nil
      · exact .single c.finding_shown

theorem handlerRule_shows : HandlerRule.rule.Shows := by
  rintro c _ ⟨⟩
  refine .flatMap fun w => .filterMap fun e => ?_
  rw [HandlerRule.eventFinding?]
  split
  · exact .single c.error_shown
  · split
    · exact .nil
    · split
      · exact .nil
      · exact .single c.error_shown

theorem responsiveAttributeRule_shows : ResponsiveAttributeRule.rule.Shows := by
  rintro c _ ⟨⟩
  refine .append (.flatMap fun w => .flatMap fun p => .filterMap fun q => ?_)
    (.flatMap fun e => .filterMap fun a => ?_)
  · rw [ResponsiveAttributeRule.breakpointFinding?]
    split
    · exact .single c.error_shown
    · split
      · exact .nil
      · cases ResponsiveAttributeRule.valueProblem? q.1 _ with
        | none => exact .nil
        | some fault => exact .single c.error_shown
  · split
    · rw [ResponsiveAttributeRule.stateFinding?]
      split
      · exact .nil
      · split
        · exact .single c.error_shown
        · split
          · exact .single c.finding_shown
          · split
            · exact .single c.error_shown
            · exact .nil
    · exact .nil

theorem schemaVersionRule_shows : SchemaVersionRule.rule.Shows := by
  rintro c _ ⟨⟩
  exact .map fun p => c.finding_shown

/-- The one finding that is made by hand shows no line. -/
theorem xmlDeclarationRule_shows : XmlDeclarationRule.rule.Shows := by
  rintro c _ ⟨⟩
  split
  · refine .single ?_
    rintro _ ⟨⟩
  · exact .nil

theorem defaultRules_show : ∀ r ∈ defaultRules, r.Shows := by
  simp only [defaultRules, List.forall_mem_cons]
  exact ⟨themeRule_shows, styleClassRule_shows, referenceRule_shows, widgetAttributeRule_shows,
    handlerRule_shows, responsiveAttributeRule_shows, schemaVersionRule_shows,
    xmlDeclarationRule_shows, List.forall_mem_nil _⟩

/-! ### Lines -/

/-- What is shown for a line of a source: the line of an editor with this number, which is a
part of the line of the source or of one before it. It is the line of the source if nothing else
ends a line up to there. -/
structure ShowsLine (source : SourceMap) (line : Int) (shown : String) : Prop where
  positive : 1 ≤ line
  part : ∃ l k s, (lines (decodeUtf8 source.bytes))[(line - 1).toNat]? = some l ∧
    shown = String.ofList (trim l) ∧
    k ≤ (line - 1).toNat ∧ source.lines[k]? = some s ∧ l <:+: s
  unbroken : (∀ s ∈ source.lines.take line.toNat, Unbroken s) →
    ∃ s, source.lines[(line - 1).toNat]? = some s ∧ shown = String.ofList (trim s)

theorem showsLine_of_shownLine? {source : SourceMap} {line : Int} {shown : String}
    (h : shownLine? (decodeUtf8 source.bytes) line = some shown) : ShowsLine source line shown := by
  obtain ⟨l, hl, rfl⟩ := Option.map_eq_some_iff.mp h
  rw [lineAt?] at hl
  split at hl
  · next hpositive =>
    obtain ⟨k, hk, s, hs, hpart⟩ := source.lined.exists_part hl
    refine ⟨hpositive, ⟨l, k, s, hl, rfl, hk, hs, hpart⟩, fun hunbroken => ?_⟩
    have hline : line.toNat = (line - 1).toNat + 1 := by omega
    obtain ⟨s, hs, htrim⟩ := source.lined.trim_eq (hline ▸ hunbroken) hl
    exact ⟨s, hs, by rw [htrim]⟩
  · cases hl

variable {rules : List Rule} {settings : Settings} {custom : List String} {bytes : List UInt8}
  {path : String} {result : Result} {notices : List Notice}

theorem check_eq_ok (h : check rules settings custom bytes path = (.ok result, notices)) :
    (∃ e, result = unreadable (decodeUtf8 bytes) path e) ∨
      ∃ c, c.text = decodeUtf8 bytes ∧ result = examine c path rules := by
  rw [check] at h
  split at h
  · obtain ⟨⟨⟩, -⟩ := Prod.mk.inj h
    exact .inl ⟨_, rfl⟩
  · cases h
  · split at h
    · obtain ⟨⟨⟩, -⟩ := Prod.mk.inj h
      exact .inl ⟨_, rfl⟩
    · cases h
    · obtain ⟨⟨⟩, -⟩ := Prod.mk.inj h
      exact .inr ⟨_, rfl, rfl⟩

/-- A finding that shows a line is at some line, and the line that it shows is the one that has
this number in an editor. -/
theorem check_showsLine (standard : ∀ r ∈ rules, r ∈ defaultRules)
    (h : check rules settings custom bytes path = (.ok result, notices)) {f : Finding}
    (hf : f ∈ result.findings) {shown : String} (hshown : f.context = some shown) :
    ∃ line, f.line = some line ∧ ShowsLine ⟨bytes⟩ line shown := by
  have hfinding : f.Shown (decodeUtf8 bytes) := by
    obtain ⟨e, rfl⟩ | ⟨c, htext, rfl⟩ := check_eq_ok h
    · exact unreadable_shown _ path e f hf
    · rw [(examine_ordered c path rules).perm.mem_iff, List.mem_flatMap] at hf
      obtain ⟨r, hr, hf⟩ := hf
      rw [Rule.found] at hf
      split at hf
      · next findings hfindings =>
          exact htext ▸ defaultRules_show r (standard r hr) c findings hfindings f hf
      · cases hf
  obtain ⟨line, hline, hshown⟩ := hfinding shown hshown
  exact ⟨line, hline, showsLine_of_shownLine? hshown⟩

/-! ### A comment with a carriage return -/

/-- A comment of two lines, as an editor has it, and behind its line `<text value="{a +}"/>`. -/
def returnedText : List Char := "<!--\r-->\n<text value=\"\x7ba +\x7d\"/>".toList

def returned : List UInt8 := encodeUtf8 returnedText

def returnedMarkup : Markup :=
  ⟨⟨"text", [⟨"value", "\x7ba +\x7d", ⟨22, 27, 2, 14⟩⟩], [], ⟨9, 30, 2, 1⟩⟩, ⟨returned⟩, false⟩

def returnedError : ParseError := ⟨.expression (.missing .operand none), ⟨26, 26, 2, 18⟩⟩

theorem read_returned : Markup.read returned = .ok returnedMarkup := by
  decide +kernel

set_option maxRecDepth 4000 in
theorem ofMarkup_returned :
    (Document.ofMarkup [] returnedMarkup).run [] = (.error (.parse returnedError), []) := by
  cbv

theorem lines_returned :
    SourceMap.lines ⟨returned⟩ = ["<!--\r-->".toList, "<text value=\"\x7ba +\x7d\"/>".toList] := by
  cbv

/-- The error stands on the second line of the source, and an editor has the end
of the comment there. -/
theorem check_returned : ∃ result f, check defaultRules {} [] returned untitled = (.ok result, []) ∧
    f ∈ result.findings ∧ f.line = some 2 ∧ f.context = some "-->" ∧ ShowsLine ⟨returned⟩ 2 "-->" ∧
    SourceMap.lines ⟨returned⟩ = ["<!--\r-->".toList, "<text value=\"\x7ba +\x7d\"/>".toList] := by
  have hread : Document.read [] returned = (.error (.parse returnedError), []) := by
    rw [Document.read, read_returned]
    exact ofMarkup_returned
  have hcheck := check_of_read_eq_error hread defaultRules {} untitled
  have hcontext : shownLine? (decodeUtf8 returned) 2 = some "-->" := by
    rw [returned, decodeUtf8_encodeUtf8]
    cbv
  refine ⟨_, _, hcheck, List.mem_singleton_self _, rfl, hcontext, ?_, lines_returned⟩
  obtain ⟨_, ⟨⟩, hshows⟩ :=
    check_showsLine (fun _ h => h) hcheck (List.mem_singleton_self _) hcontext
  exact hshows

end UiMarkup.Lint
