import UiMarkup.Lint.Check
import UiMarkup.Proofs.Document.Reading

/-!
The check of a document gives a result. The first thing that keeps the document from
being read is its finding; a document that is read is passed to all rules, and their
findings are those of the check.
-/

namespace UiMarkup.Lint

/-- What the rules of a list find, one after another. None of them fails. -/
def Found (c : Context) (rules : List Rule) (found : List (List Finding)) : Prop :=
  List.Forall₂ (fun r findings => r.check c = .ok findings) rules found

theorem runRules_eq {c : Context} {rules : List Rule} {found : List (List Finding)}
    (h : Found c rules found) : runRules c rules = (found.flatten, []) := by
  induction h with
  | nil => rfl
  | cons hr _ ih => rw [runRules, ih, hr, List.flatten_cons]

theorem exists_found {c : Context} {rules : List Rule}
    (h : ∀ r ∈ rules, ∃ findings, r.check c = .ok findings) : ∃ found, Found c rules found := by
  induction rules with
  | nil => exact ⟨[], .nil⟩
  | cons r rules ih =>
      obtain ⟨findings, hr⟩ := h r (by simp)
      obtain ⟨found, hrules⟩ := ih fun r' h' => h r' (List.mem_cons_of_mem r h')
      exact ⟨findings :: found, .cons hr hrules⟩

theorem exists_check_eq_ok (c : Context) :
    ∀ r ∈ defaultRules, ∃ findings, r.check c = .ok findings := by
  simp only [defaultRules, List.forall_mem_cons]
  exact ⟨⟨_, rfl⟩, ⟨_, rfl⟩, ⟨_, rfl⟩, ⟨_, rfl⟩, ⟨_, rfl⟩, ⟨_, rfl⟩, ⟨_, rfl⟩, ⟨_, rfl⟩, by simp⟩

/-- The only finding is an error that says what is wrong with the document, and where. -/
def Result.Reports (r : Result) (e : ParseError) : Prop :=
  ∃ context, r.findings = [{
    rule := parseRule
    message := e.report.message
    severity := .error
    line := some e.span.line
    column := some e.span.column
    suggestion := e.report.suggestion
    context := context }]

theorem unreadable_reports (text : List Char) (path : String) (e : ParseError) :
    (unreadable text path e).Reports e := ⟨_, rfl⟩

/-- Looking for the encoding that a document declares does not fail, and the
numbers in it have a value. -/
structure Checkable (bytes : List UInt8) : Prop where
  encoding : ∀ fault, Markup.read bytes ≠ .error (.unknownEncoding fault)
  numbers : ∀ m, Markup.read bytes = .ok m → Document.NumbersConvert m.root

variable {bytes : List UInt8} {custom : List String} {notices : List Notice}

theorem Checkable.read_ends (h : Checkable bytes) (custom : List String) :
    (∃ e notices, Document.read custom bytes = (.error (.parse e), notices)) ∨
      ∃ m document notices, Markup.read bytes = .ok m ∧
        Document.read custom bytes = (.ok document, notices) ∧
        ∀ element ∈ Document.widgetElements m.root, ∀ a ∈ element.attributes, a.Readable := by
  rw [Document.read]
  cases hm : Markup.read bytes with
  | error fault =>
      cases fault with
      | xml fault span => exact .inl ⟨_, _, rfl⟩
      | unknownEncoding fault => exact absurd hm (h.encoding fault)
  | ok m =>
      have hends := Document.ofMarkup_ends custom (h.numbers m hm) []
      dsimp only
      generalize (Document.ofMarkup custom m).run [] = outcome at hends ⊢
      obtain ⟨r, notices⟩ := outcome
      cases r with
      | ok document => exact .inr ⟨m, document, notices, rfl, rfl, Ends.ok_iff.mp hends⟩
      | error fault =>
          obtain ⟨e, rfl⟩ := (Ends.error_iff.mp hends).exists_eq
          exact .inl ⟨e, notices, rfl⟩

theorem check_of_read_eq_error {e : ParseError}
    (h : Document.read custom bytes = (.error (.parse e), notices))
    (rules : List Rule) (settings : Settings) (path : String) :
    check rules settings custom bytes path =
      (.ok (unreadable (Text.decodeUtf8 bytes) path e), notices) := by
  rw [Document.read] at h
  rw [check]
  cases hm : Markup.read bytes with
  | error fault =>
      rw [hm] at h
      cases fault <;> cases h
      rfl
  | ok m =>
      rw [hm] at h
      dsimp only at h ⊢
      rw [h]

theorem check_of_read_eq_ok {m : Markup} {document : Document} (hm : Markup.read bytes = .ok m)
    (h : Document.read custom bytes = (.ok document, notices)) (rules : List Rule)
    (settings : Settings) (path : String) :
    check rules settings custom bytes path =
      (.ok (examine ⟨Text.decodeUtf8 bytes, document, m, settings⟩ path rules), notices) := by
  rw [Document.read, hm] at h
  dsimp only at h
  rw [check, hm]
  dsimp only
  rw [h]

/-- A document in an encoding that is found and with numbers that have a value is checked to the
end. What keeps it from being read is its finding; a group in an attribute of a widget that is no
expression does so. Else the findings are those of all rules. A malformed parameter of an event is
part of the name of the handler. -/
theorem check_defaultRules (h : Checkable bytes) (custom : List String) (settings : Settings)
    (path : String) :
    ∃ result notices, check defaultRules settings custom bytes path = (.ok result, notices) ∧
      result.path = path ∧ result.failures = [] ∧
      ((∃ e, Document.read custom bytes = (.error (.parse e), notices) ∧ result.Reports e) ∨
        ∃ m document found, Markup.read bytes = .ok m ∧
          Document.read custom bytes = (.ok document, notices) ∧
          Found ⟨Text.decodeUtf8 bytes, document, m, settings⟩ defaultRules found ∧
          result.findings.Perm found.flatten) ∧
      ∀ m, Markup.read bytes = .ok m → ∀ element ∈ Document.widgetElements m.root,
        ∀ a ∈ element.attributes,
        (∀ text ∈ a.groups, (∀ e, ExprParser.parse text ≠ .ok e) → ∃ e, result.Reports e) ∧
        ∀ event text err, EventKind.ofAttribute? a.name = some event → a.param? = some text →
          ExprParser.parse text = .error (.malformed err) →
          EventBinding.parse a.name a.value ⟨a.span, some m.source⟩ =
            .ok (some ⟨event, a.value, none, a.span⟩) := by
  have hevent (m : Markup) (a : Attribute) (event : EventKind) (text : List Char) (err : ExprError)
      (hname : EventKind.ofAttribute? a.name = some event) (htext : a.param? = some text)
      (herr : ExprParser.parse text = .error (.malformed err)) :
      EventBinding.parse a.name a.value ⟨a.span, some m.source⟩ =
        .ok (some ⟨event, a.value, none, a.span⟩) := by
    refine EventBinding.parse_of_malformed hname ?_ herr _
    simpa [Attribute.param?, hname] using htext
  obtain ⟨e, notices, hread⟩ | ⟨m, document, notices, hm, hread, hreadable⟩ := h.read_ends custom
  · have hreports := unreadable_reports (Text.decodeUtf8 bytes) path e
    refine ⟨_, notices, check_of_read_eq_error hread _ _ _, rfl, rfl, .inl ⟨e, hread, hreports⟩, ?_⟩
    exact fun m _ _ _ a _ => ⟨fun _ _ _ => ⟨e, hreports⟩, hevent m a⟩
  · obtain ⟨found, hfound⟩ :=
      exists_found (exists_check_eq_ok ⟨Text.decodeUtf8 bytes, document, m, settings⟩)
    have hrules := runRules_eq hfound
    refine ⟨_, notices, check_of_read_eq_ok hm hread _ _ _, by rw [examine, hrules],
      by rw [examine, hrules], .inr ⟨m, document, found, hm, hread, hfound, ?_⟩, ?_⟩
    · rw [examine, hrules]
      exact List.mergeSort_perm _ _
    · intro m' hm' element helement a ha
      obtain rfl : m = m' := Except.ok.inj (hm.symm.trans hm')
      refine ⟨fun text htext hmalformed => ?_, hevent m a⟩
      obtain ⟨e, he⟩ := hreadable element helement a ha text htext
      exact absurd he (hmalformed e)

/-! ### A sum without its second operand -/

def openSum : List Char := ['a', ' ', '+']

theorem tokens_openSum : Lexer.tokens openSum = .ok [⟨.name "a", 0, 1⟩, ⟨.symbol .plus, 2, 1⟩] := by
  decide +kernel

theorem parse_openSum :
    ExprParser.parse openSum = .error (.malformed ⟨.missing .operand none, 3⟩) := by
  decide +kernel

theorem numbersConvert_openSum : ExprParser.NumbersConvert openSum := by
  intro ts hts
  obtain rfl := Except.ok.inj (tokens_openSum.symm.trans hts)
  simp [Lexeme.Convertible]

/-- `<text value="{a +}"/>`. -/
def sumText : List UInt8 := "<text value=\"\x7ba +\x7d\"/>".toUTF8.toList

def sumTextAttribute : Attribute := ⟨"value", "\x7ba +\x7d", ⟨13, 18, 1, 14⟩⟩

def sumTextMarkup : Markup := ⟨⟨"text", [sumTextAttribute], [], ⟨0, 21, 1, 1⟩⟩, ⟨sumText⟩, false⟩

theorem read_sumText : Markup.read sumText = .ok sumTextMarkup := by
  decide +kernel

theorem groups_sumTextAttribute : sumTextAttribute.groups = [openSum] := by
  cbv

theorem widgetElements_sumText :
    Document.widgetElements sumTextMarkup.root = [sumTextMarkup.root] := by
  cbv

theorem checkable_sumText : Checkable sumText := by
  refine ⟨fun name h => ?_, fun m hm => ⟨fun htag => ?_, ?_⟩⟩
  · rw [read_sumText] at h
    cases h
  · obtain rfl : sumTextMarkup = m := Except.ok.inj (read_sumText.symm.trans hm)
    exact absurd htag (by decide)
  · obtain rfl : sumTextMarkup = m := Except.ok.inj (read_sumText.symm.trans hm)
    rw [widgetElements_sumText]
    intro e he a ha
    obtain rfl := List.mem_singleton.mp he
    obtain rfl := List.mem_singleton.mp ha
    refine ⟨?_, fun text htext => ?_⟩
    · rw [groups_sumTextAttribute]
      simpa using numbersConvert_openSum
    · cases htext

theorem check_defaultRules_sumText :
    ∃ result notices e, check defaultRules {} [] sumText untitled = (.ok result, notices) ∧
      result.Reports e := by
  obtain ⟨result, notices, hcheck, -, -, -, hattributes⟩ :=
    check_defaultRules checkable_sumText [] {} untitled
  obtain ⟨hgroup, -⟩ := hattributes _ read_sumText sumTextMarkup.root
    (by simp [widgetElements_sumText]) sumTextAttribute (by simp [sumTextMarkup])
  obtain ⟨e, he⟩ := hgroup openSum (by simp [groups_sumTextAttribute]) (by simp [parse_openSum])
  exact ⟨result, notices, e, hcheck, he⟩

/-- `<button label="b" on_click="save:{a +}"/>`. -/
def sumButton : List UInt8 := "<button label=\"b\" on_click=\"save:\x7ba +\x7d\"/>".toUTF8.toList

def sumButtonEvent : Attribute := ⟨"on_click", "save:\x7ba +\x7d", ⟨28, 38, 1, 29⟩⟩

def sumButtonMarkup : Markup where
  root := ⟨"button", [⟨"label", "b", ⟨15, 16, 1, 16⟩⟩, sumButtonEvent], [], ⟨0, 41, 1, 1⟩⟩
  source := ⟨sumButton⟩
  hasDeclaration := false

def sumButtonDocument : Document where
  root :=
    { kind := .builtin .button
      attributes := [("label", .static "b")]
      events := [⟨.click, "save:\x7ba +\x7d", none, ⟨28, 38, 1, 29⟩⟩]
      span := ⟨0, 41, 1, 1⟩ }

theorem read_sumButton : Markup.read sumButton = .ok sumButtonMarkup := by
  decide +kernel

set_option maxRecDepth 4000 in
theorem ofMarkup_sumButton :
    (Document.ofMarkup [] sumButtonMarkup).run [] = (.ok sumButtonDocument, []) := by
  cbv

theorem found_sumButton (text : List Char) :
    Found ⟨text, sumButtonDocument, sumButtonMarkup, {}⟩ defaultRules
    [[], [], [], [], [], [], [], []] := by
  have handler : HandlerRule.rule.check ⟨text, sumButtonDocument, sumButtonMarkup, {}⟩ =
      .ok [] := by
    have htrim : Text.trim "save:\x7ba +\x7d".toList = "save:\x7ba +\x7d".toList := by decide
    have hnone (c : Context) (hc : c.settings = {}) (w : Widget) (e : EventBinding)
        (he : e.handler = "save:\x7ba +\x7d") : HandlerRule.eventFinding? c w e = none := by
      rw [HandlerRule.eventFinding?, he, hc, htrim]
      rfl
    simp [HandlerRule.rule, Document.walk, sumButtonDocument, Widget.walk, Widget.walkAll, hnone]
  have responsive : ResponsiveAttributeRule.rule.check
      ⟨text, sumButtonDocument, sumButtonMarkup, {}⟩ = .ok [] := by
    simp [ResponsiveAttributeRule.rule, Document.walk, sumButtonDocument, Widget.walk,
      Widget.walkAll, ResponsiveAttributeRule.widgetFindings, sumButtonMarkup, sumButtonEvent,
      Element.walk, Element.walkAll, ResponsiveAttributeRule.elementFindings]
  refine .cons ?_
    (.cons ?_ (.cons ?_ (.cons ?_ (.cons handler (.cons responsive (.cons ?_ (.cons ?_ .nil)))))))
  · cbv
  · cbv
  · cbv
  · cbv
  · cbv
  · cbv

/-- A parameter that is no expression is no finding. -/
theorem check_sumButton : Markup.read sumButton = .ok sumButtonMarkup ∧
    sumButtonEvent ∈ sumButtonMarkup.root.attributes ∧ sumButtonEvent.param? = some openSum ∧
    (∀ e, ExprParser.parse openSum ≠ .ok e) ∧
    check defaultRules {} [] sumButton untitled =
      (.ok { path := untitled, findings := [] }, []) := by
  refine ⟨read_sumButton, by simp [sumButtonMarkup], by cbv, by simp [parse_openSum], ?_⟩
  have hread : Document.read [] sumButton = (.ok sumButtonDocument, []) := by
    rw [Document.read, read_sumButton]
    exact ofMarkup_sumButton
  rw [check_of_read_eq_ok read_sumButton hread, examine, runRules_eq (found_sumButton _)]
  simp

end UiMarkup.Lint
