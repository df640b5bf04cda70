import UiMarkup.Lint.WidgetRules
import UiMarkup.Proofs.Document.Provenance
import UiMarkup.Proofs.Markup.Writing
import UiMarkup.Proofs.Widget.Renaming
import UiMarkup.Proofs.Widget.Routing

/-!
Attributes that are called as those of events are. The reader of widgets knows the kinds of events,
the rules about attributes know what each kind of widget has. An attribute that begins like that of
an event is bound by the reader or reported by a rule: as unknown or, with a colon in its name, as
one with a state that there is not.
-/

namespace UiMarkup

open Text

/-! ### Names -/

/-- The name begins as those of events do. -/
def EventKind.Marked (name : String) : Prop := attributeMark.toList <+: name.toList

instance : DecidablePred EventKind.Marked := fun name =>
  inferInstanceAs (Decidable (EventKind.attributeMark.toList <+: name.toList))

theorem EventKind.Marked.eq {name : String} (h : Marked name) : ∃ cs, name.toList = 'o' :: cs := by
  obtain ⟨cs, hname⟩ := h
  exact ⟨_, hname.symm⟩

theorem Text.trim_cons {c : Char} (h : isBlank c = false) (cs : List Char) :
    ∃ rest, trim (c :: cs) = c :: rest := by
  rw [trim, trimBy, List.dropWhile_cons_of_neg (by simp [h]), trimRightBy, List.reverse_cons,
    List.dropWhile_append]
  split
  · exact ⟨[], by simp [h]⟩
  · exact ⟨(cs.reverse.dropWhile isBlank).reverse, by simp⟩

/-- Neither trimming nor lower case changes the first letter. -/
theorem Value.keywordForm_of_cons (cs : List Char) :
    ∃ rest, Value.keywordForm (String.ofList ('o' :: cs)) = String.ofList ('o' :: rest) := by
  have hlower : lowerChar 'o' = ['o'] := by decide +kernel
  obtain ⟨rest, hrest⟩ := trim_cons (c := 'o') (by decide) cs
  exact ⟨lowerAfter ['o'] rest, by simp [Value.keywordForm, hrest, lower, lowerAfter, hlower]⟩

theorem WidgetState.ofText?_of_cons (cs : List Char) :
    ofText? (String.ofList ('o' :: cs)) = none := by
  obtain ⟨rest, hrest⟩ := Value.keywordForm_of_cons cs
  rw [ofText?, hrest, ofName?, List.find?_eq_none]
  intro s _ hs
  have hname := congrArg (fun name => name.toList.head?) (of_decide_eq_true hs)
  cases s <;> simp [WidgetState.name] at hname

theorem Breakpoint.ofText?_of_cons (cs : List Char) :
    ofText? (String.ofList ('o' :: cs)) = none := by
  obtain ⟨rest, hrest⟩ := Value.keywordForm_of_cons cs
  rw [ofText?, hrest, List.find?_eq_none]
  intro b _ hb
  have hname := congrArg (fun name => name.toList.head?) (of_decide_eq_true hb)
  cases b <;> simp [Breakpoint.name] at hname

namespace Text

variable {sep c : Char} {cs before after : List Char}

theorem cons_of_cut? (h : cut? sep (c :: cs) = some (before, after)) (hne : c ≠ sep) :
    ∃ rest, before = c :: rest := by
  rw [cut?, if_neg hne] at h
  obtain ⟨⟨first, rest⟩, -, heq⟩ := Option.map_eq_some_iff.mp h
  obtain ⟨rfl, -⟩ := Prod.mk.inj heq
  exact ⟨first, rfl⟩

theorem cons_of_cutLast? (h : cutLast? sep (c :: cs) = some (before, after)) (hne : c ≠ sep) :
    ∃ rest, before = c :: rest := by
  obtain ⟨⟨a, b⟩, hcut, heq⟩ := Option.map_eq_some_iff.mp h
  obtain ⟨rfl, rfl⟩ := Prod.mk.inj heq
  have hsplit := congrArg List.reverse (eq_append_of_cut? hcut).1
  rw [List.reverse_reverse, List.reverse_append, List.reverse_cons, List.append_assoc] at hsplit
  cases hb : b.reverse with
  | nil =>
      rw [hb] at hsplit
      exact absurd (List.cons.inj hsplit).1 hne
  | cons d rest =>
      rw [hb] at hsplit
      exact ⟨rest, by rw [(List.cons.inj hsplit).1]⟩

theorem pieces_cons (hne : c ≠ sep) (cs : List Char) :
    ∃ first more, pieces sep (c :: cs) = (c :: first) :: more := by
  have hother : (c == sep) = false := by simpa using hne
  rw [pieces, piecesBy, hother]
  cases piecesBy (· == sep) cs with
  | nil => exact ⟨[], [], rfl⟩
  | cons first more => exact ⟨first, more, rfl⟩

end Text

namespace AttributeName

variable {name : String} (marked : EventKind.Marked name)
include marked

theorem splitBreakpoint?_of_marked : splitBreakpoint? name = none := by
  obtain ⟨cs, hname⟩ := marked.eq
  rw [splitBreakpoint?, splitFirst?, hname]
  cases hcut : cut? '-' ('o' :: cs) with
  | none => rfl
  | some parts =>
      obtain ⟨before, after⟩ := parts
      obtain ⟨rest, rfl⟩ := cons_of_cut? hcut (by decide)
      dsimp only
      split
      · rfl
      · rw [Option.bind_eq_bind, Option.bind_some]
        dsimp only
        rw [Breakpoint.ofText?_of_cons]
        rfl

theorem singleState?_of_marked : Route.singleState? name = none := by
  obtain ⟨cs, hname⟩ := marked.eq
  cases hstate : Route.singleState? name with
  | none => rfl
  | some parts =>
      obtain ⟨before, after, hcut, -, -, hbefore, -⟩ := parts_of_singleState? hstate
      rw [hname] at hcut
      obtain ⟨rest, rfl⟩ := cons_of_cut? hcut (by decide)
      rw [WidgetState.ofText?_of_cons] at hbefore
      cases hbefore

theorem splitSelector?_of_marked : splitSelector? name = none := by
  obtain ⟨cs, hname⟩ := marked.eq
  rw [splitSelector?, splitLast?, hname]
  cases hcut : cutLast? ':' ('o' :: cs) with
  | none => rfl
  | some parts =>
      obtain ⟨before, after⟩ := parts
      obtain ⟨rest, rfl⟩ := cons_of_cutLast? hcut (by decide)
      obtain ⟨first, more, hpieces⟩ := pieces_cons (show 'o' ≠ ':' by decide) rest
      have hstates :
          ((pieces ':' ('o' :: rest)).mapM fun p => WidgetState.ofText? (String.ofList p)) =
            none := by
        rw [hpieces, List.mapM_cons, WidgetState.ofText?_of_cons]
        rfl
      simp [hstates]

end AttributeName

/-! ### What the reader makes of them -/

theorem Route.of_marked {source : SourceMap} {a : Attribute} {route : Route}
    (h : ofAttribute source a = .ok route) (marked : EventKind.Marked a.name) :
    (∃ event, EventBinding.parse a.name a.value ⟨a.span, some source⟩ = .ok (some event) ∧
      route = .event event) ∨
      EventKind.ofAttribute? a.name = none ∧ ∃ v, route = .plain a.name v := by
  have named : a.name ≠ "id" := fun heq => absurd (heq ▸ marked) (by decide)
  rw [ofAttribute, if_neg named] at h
  obtain ⟨event, hevent, h⟩ := bind_eq_ok_iff.mp h
  replace hevent := mapError_eq_ok_iff.mp hevent
  cases event with
  | some event =>
      obtain rfl := Except.ok.inj h
      exact .inl ⟨event, hevent, rfl⟩
  | none =>
      rw [AttributeName.splitBreakpoint?_of_marked marked,
        AttributeName.singleState?_of_marked marked] at h
      obtain ⟨v, -, h⟩ := bind_eq_ok_iff.mp h
      exact .inr ⟨EventBinding.parse_eq_ok_none_iff.mp hevent, v, (Except.ok.inj h).symm⟩

/-- An event of the widget, or one of its attributes. -/
theorem Widget.event_or_key_of_madeOf {custom : List String} {source : SourceMap} {e : Element}
    {w : Widget} (h : w.MadeOf custom source e) {a : Attribute} (ha : a ∈ e.attributes)
    (marked : EventKind.Marked a.name) :
    (∃ event ∈ w.events, EventBinding.parse a.name a.value ⟨a.span, some source⟩ =
      .ok (some event)) ∨
      EventKind.ofAttribute? a.name = none ∧ a.name ∈ w.attributes.keys := by
  obtain ⟨routed, hrouted, hassembled⟩ := h.assembled
  obtain ⟨before, after, hsplit⟩ := List.append_of_mem ha
  obtain ⟨front, route, back, hroute, -, hholds⟩ := Routed.exists_of_ofAttributes (hsplit ▸ hrouted)
  obtain ⟨event, hevent, rfl⟩ | ⟨hnone, v, rfl⟩ := Route.of_marked hroute marked
  · refine .inl ⟨event, ?_, hevent⟩
    rw [hassembled.events, hholds.events]
    exact List.mem_filterMap.mpr ⟨.event event, by simp, rfl⟩
  · refine .inr ⟨hnone, ?_⟩
    have hplain : (a.name, v) ∈ (front ++ Route.plain a.name v :: back).filterMap Route.plain? :=
      List.mem_filterMap.mpr ⟨.plain a.name v, by simp, rfl⟩
    have hkey : a.name ∈ routed.attributes.keys :=
      hholds.attributes.mem_keys_iff.mpr (List.mem_map_of_mem hplain)
    have hrenamed : ∀ r ∈ renamings, a.name ≠ r.oldName ∧ a.name ≠ r.newName := by
      have hunmarked : ∀ r ∈ renamings, ¬ EventKind.Marked r.oldName ∧
          ¬ EventKind.Marked r.newName := by decide
      exact fun r hr =>
        ⟨fun heq => (hunmarked r hr).1 (heq ▸ marked), fun heq => (hunmarked r hr).2 (heq ▸ marked)⟩
    rw [hassembled.attributes, ← OrderedMap.has_iff_mem_keys, OrderedMap.has,
      Renaming.get?_applyAll_of_forall hrenamed, ← OrderedMap.has, OrderedMap.has_iff_mem_keys]
    exact hkey

/-! ### What the rules say of them -/

theorem unmarked_common : ∀ n ∈ "id" :: (commonStyleAttributes ++ commonLayoutAttributes),
    ¬ EventKind.Marked n := by
  decide +kernel

theorem isSome_of_mem_commonEvents : ∀ n ∈ commonEvents, (EventKind.ofAttribute? n).isSome := by
  decide +kernel

theorem isSome_of_mem_pickerEvents : ∀ n ∈ pickerEvents, (EventKind.ofAttribute? n).isSome := by
  decide +kernel

namespace WidgetKind

variable (k : WidgetKind)

theorem styleAttributes_eq : k.schema.styleAttributes = commonStyleAttributes := by cases k <;> rfl

theorem layoutAttributes_subset : k.schema.layoutAttributes ⊆ commonLayoutAttributes := by
  cases k with
  | tooltip => decide
  | _ => exact List.Subset.refl commonLayoutAttributes

theorem unmarked_own : ∀ n ∈ k.schema.required ++ k.schema.optional, ¬ EventKind.Marked n := by
  cases k <;> decide +kernel

/-- A table knows an event that the reader does not know. -/
theorem isSome_of_mem_events : ∀ n ∈ k.schema.events,
    (EventKind.ofAttribute? n).isSome ∨ k = .dataTable ∧ n = "on_row_click" := by
  cases k with
  | column | row | container | stack | text | image | svg | tooltip | grid | float | menu
  | menuItem | contextMenu | treeNode =>
      exact fun n hn => .inl (isSome_of_mem_commonEvents n hn)
  | datePicker | timePicker | colorPicker =>
      exact fun n hn => .inl (isSome_of_mem_pickerEvents n hn)
  | _ => decide +kernel

/-- Of all names that begin as those of events do, a kind of widgets knows
those of its events only. -/
theorem event_of_accepts {k : WidgetKind} {name : String} (h : k.schema.accepts name = true)
    (marked : EventKind.Marked name) :
    (EventKind.ofAttribute? name).isSome ∨ k = .dataTable ∧ name = "on_row_click" := by
  have hstrict : k.schema.permissive = false := by cases k <;> rfl
  rw [WidgetSchema.accepts, hstrict, Bool.false_or, List.contains_iff_mem, WidgetSchema.names,
    styleAttributes_eq] at h
  have hcommon (hname : name ∈ commonStyleAttributes ++ commonLayoutAttributes) :
      ¬ EventKind.Marked name :=
    unmarked_common name (List.mem_cons_of_mem _ hname)
  simp only [List.mem_cons, List.mem_append] at h
  obtain rfl | (((hrequired | hoptional) | hevent) | hstyle) | hlayout := h
  · exact absurd marked (unmarked_common "id" List.mem_cons_self)
  · exact absurd marked (unmarked_own k name (List.mem_append_left _ hrequired))
  · exact absurd marked (unmarked_own k name (List.mem_append_right _ hoptional))
  · exact isSome_of_mem_events k name hevent
  · exact absurd marked (hcommon (List.mem_append_left _ hstyle))
  · exact absurd marked (hcommon (List.mem_append_right _ (layoutAttributes_subset k hlayout)))

end WidgetKind

namespace Lint

theorem mem_sorted {name : String} {names : List String} : name ∈ sorted names ↔ name ∈ names :=
  List.mem_mergeSort

theorem WidgetAttributeRule.exists_unknown {c : Context} {w : Widget} {name : String}
    (key : name ∈ w.attributes.keys) (colon : ':' ∉ name.toList)
    (unknown : w.kind.schema.accepts name = false) :
    ∃ f ∈ widgetFindings c w, f.rule = id ∧
      f.message = "Unknown attribute '" ++ name ++ "' for " ++ w.kind.displayName ∧
      f.line = some w.span.line ∧ f.column = some w.span.column := by
  have hstrict : w.kind.schema.permissive = false := (Bool.or_eq_false_iff.mp unknown).1
  have hreported : (name.toList.contains ':' || w.kind.schema.accepts name) = false := by
    simpa [unknown] using colon
  obtain ⟨f, hf, hplace⟩ : ∃ f, unknownFinding? c w name = some f ∧ f.rule = id ∧
      f.message = "Unknown attribute '" ++ name ++ "' for " ++ w.kind.displayName ∧
      f.line = some w.span.line ∧ f.column = some w.span.column := by
    rw [unknownFinding?, hreported, if_neg Bool.false_ne_true]
    exact ⟨_, rfl, rfl, rfl, rfl, rfl⟩
  refine ⟨f, ?_, hplace⟩
  rw [widgetFindings, hstrict, if_neg Bool.false_ne_true, List.append_assoc]
  exact List.mem_append_left _ (List.mem_filterMap.mpr ⟨name, mem_sorted.mpr key, hf⟩)

theorem ResponsiveAttributeRule.exists_invalid {c : Context} {e : Element} {name : String}
    (tag : e.tag ∉ classTags) (marked : EventKind.Marked name) :
    ∃ f, stateFinding? c e name = some f ∧ f.rule = id ∧
      f.message = "Invalid state prefix '" ++ statesText name ++ "' in attribute '" ++ name ++ "'" ∧
      f.line = some e.span.line ∧ f.column = some e.span.column := by
  have htag : classTags.contains e.tag = false := by simpa using tag
  rw [stateFinding?, htag, if_neg Bool.false_ne_true, AttributeName.splitSelector?_of_marked marked]
  exact ⟨_, rfl, rfl, rfl, rfl, rfl⟩

/-! ### Documents -/

/-- An attribute of a widget is bound as an event, or reported as unknown, or, with a colon in its
name, reported as one for a state that there is not. -/
inductive Accounted (source : SourceMap) (unknown invalid : List Finding) (e : Element) (w : Widget)
    (a : Attribute) :
    Prop
  | bound {event : EventBinding} (among : event ∈ w.events)
      (read : EventBinding.parse a.name a.value ⟨a.span, some source⟩ = .ok (some event)) :
      Accounted source unknown invalid e w a
  | unknown {f : Finding} (colon : ':' ∉ a.name.toList) (among : f ∈ unknown)
      (rule : f.rule = "widget-attribute")
      (message : f.message = "Unknown attribute '" ++ a.name ++ "' for " ++ w.kind.displayName)
      (line : f.line = some w.span.line) (column : f.column = some w.span.column) :
      Accounted source unknown invalid e w a
  | invalid {f : Finding} (colon : ':' ∈ a.name.toList) (among : f ∈ invalid)
      (rule : f.rule = "responsive-attribute")
      (message : f.message = "Invalid state prefix '" ++
        ResponsiveAttributeRule.statesText a.name ++ "' in attribute '" ++ a.name ++ "'")
      (line : f.line = some e.span.line) (column : f.column = some e.span.column) :
      Accounted source unknown invalid e w a

/-- Every attribute of a widget of a built-in kind that begins as those of events do is accounted
for, unless it is the one that tables know and the reader does not. -/
theorem accounted_of_read {custom : List String} {bytes : List UInt8} {d : Document}
    {notices : List Notice} (h : Document.read custom bytes = (.ok d, notices)) :
    ∃ m, Markup.read bytes = .ok m ∧ ∀ text settings, ∃ unknown invalid,
      WidgetAttributeRule.rule.check ⟨text, d, m, settings⟩ = .ok unknown ∧
      ResponsiveAttributeRule.rule.check ⟨text, d, m, settings⟩ = .ok invalid ∧
      (List.Forall₂ (fun e w => w.MadeOf custom m.source e ∧ ∀ k, w.kind = .builtin k →
            ∀ a ∈ e.attributes, EventKind.Marked a.name →
              ¬ (k = .dataTable ∧ a.name = "on_row_click") →
              Accounted m.source unknown invalid e w a)
          (Document.widgetElements m.root) d.walk ∨
        Document.widgetElements m.root = [] ∧ d.root = Document.emptyRoot m.root) := by
  obtain ⟨m, hm, hreturns⟩ := Document.exists_markup_of_read h
  refine ⟨m, hm, fun text settings => ⟨_, _, rfl, rfl, ?_⟩⟩
  refine (Document.mirrors_of_ofMarkup hreturns).imp_left fun hmirrors => ?_
  refine List.forall₂_iff_zip.mpr ⟨hmirrors.length_eq, fun {e w} hpair => ?_⟩
  obtain ⟨he, hw⟩ := List.of_mem_zip hpair
  have hmade := (List.forall₂_zip hmirrors hpair).1
  refine ⟨hmade, fun k kind a ha marked unlisted => ?_⟩
  obtain ⟨event, hevent, hread⟩ | ⟨hnone, hkey⟩ := Widget.event_or_key_of_madeOf hmade ha marked
  · exact .bound hevent hread
  · by_cases colon : ':' ∈ a.name.toList
    · have htag : e.tag ∉ ResponsiveAttributeRule.classTags := by
        rw [← hmade.tag, kind]
        cases k <;> decide
      obtain ⟨f, hf, hrule, hmessage, hline, hcolumn⟩ :=
        ResponsiveAttributeRule.exists_invalid (c := ⟨text, d, m, settings⟩) htag marked
      refine .invalid colon (List.mem_append_right _ (List.mem_flatMap.mpr ⟨e, ?_, ?_⟩))
        hrule hmessage hline hcolumn
      · exact Document.mem_walk_of_mem_widgetElements he
      · refine List.mem_filterMap.mpr ⟨a, ha, ?_⟩
        rw [if_pos (by simpa using colon), hf]
    · have hunknown : w.kind.schema.accepts a.name = false := by
        rw [kind, ← Bool.not_eq_true]
        intro haccepts
        obtain hevent | hlisted := WidgetKind.event_of_accepts haccepts marked
        · rw [hnone] at hevent
          cases hevent
        · exact unlisted hlisted
      obtain ⟨f, hf, hrule, hmessage, hline, hcolumn⟩ :=
        WidgetAttributeRule.exists_unknown (c := ⟨text, d, m, settings⟩) hkey colon hunknown
      exact .unknown colon (List.mem_flatMap.mpr ⟨w, hw, hf⟩) hrule hmessage hline hcolumn

/-! ### A button with a state behind the name of an event -/

section Focused

variable (source : SourceMap) (s s₁ s₂ : Span)

def focused : Element where
  tag := "button"
  attributes := [⟨"on_click", "go", .origin⟩, ⟨"on_click:focus", "go", .origin⟩]
  children := []
  span := .origin

def focusedElement : Element :=
  ⟨"button", [⟨"on_click", "go", s₁⟩, ⟨"on_click:focus", "go", s₂⟩], [], s⟩

def focusedButton : Widget where
  kind := .builtin .button
  attributes := [("on_click:focus", .static "go")]
  events := [⟨.click, "go", none, s₁⟩]
  span := s

theorem simple_focused : ∀ d ∈ focused.walk, d.Simple := by
  intro d hd
  obtain rfl := List.mem_singleton.mp hd
  exact ⟨by decide, by decide, by decide⟩

theorem build_focused :
    (Widget.build [] source (focusedElement s s₁ s₂)).run [] = (.ok (focusedButton s s₁), []) := by
  have hparse : EventBinding.parse "on_click" "go" ⟨s₁, some source⟩ =
      .ok (some ⟨.click, "go", none, s₁⟩) :=
    EventBinding.parse_of_no_colon (by decide) (by decide) _
  have hclick : Route.ofAttribute source ⟨"on_click", "go", s₁⟩ =
      .ok (.event ⟨.click, "go", none, s₁⟩) := by
    rw [Route.ofAttribute]
    dsimp only
    rw [if_neg (by decide), hparse]
    rfl
  have hfocus : Route.ofAttribute source ⟨"on_click:focus", "go", s₂⟩ =
      .ok (.plain "on_click:focus" (.static "go")) :=
    (Route.ofAttribute_eq (by decide) rfl (by decide) s₂).trans rfl
  have hrouted : Routed.ofAttributes source (focusedElement s s₁ s₂).attributes = .ok
      { events := [⟨.click, "go", none, s₁⟩],
        attributes := [("on_click:focus", .static "go")] } := by
    rw [Routed.ofAttributes, focusedElement]
    simp only [List.mapM_cons, hclick, hfocus]
    rfl
  refine (Widget.run_bind (a := Kind.builtin .button) rfl).trans ?_
  refine (Widget.run_bind (congrArg (·, []) hrouted)).trans ?_
  refine (Widget.run_bind (a := []) rfl).trans ?_
  rfl

theorem read_focused : ∃ s s₁ s₂, Markup.read (encodeUtf8 focused.write) =
      .ok ⟨focusedElement s s₁ s₂, ⟨encodeUtf8 focused.write⟩, false⟩ ∧
    Document.read [] (encodeUtf8 focused.write) = (.ok { root := focusedButton s s₁ }, []) := by
  obtain ⟨s, s₁, s₂, hplaced⟩ : ∃ s s₁ s₂,
      focused.placed ⟨encodeUtf8 focused.write⟩ 0 = focusedElement s s₁ s₂ := ⟨_, _, _, rfl⟩
  have hread := Element.read_write simple_focused
  rw [hplaced] at hread
  refine ⟨s, s₁, s₂, hread, ?_⟩
  rw [Document.read, hread]
  exact (Widget.run_bind (build_focused _ s s₁ s₂)).trans rfl

theorem widgetFindings_focused (c : Context) :
    WidgetAttributeRule.widgetFindings c (focusedButton s s₁) = [] := by
  have hsorted : sorted (focusedButton s s₁).attributes.keys = ["on_click:focus"] :=
    show sorted ["on_click:focus"] = _ by simp [sorted]
  have hcolon : "on_click:focus".toList.contains ':' = true := by decide
  have hknown : (focusedButton s s₁).kind.schema.events.contains EventKind.click.attributeName =
      true :=
    show (WidgetKind.schema .button).events.contains _ = true by decide
  have hunknown : WidgetAttributeRule.unknownFinding? c (focusedButton s s₁) "on_click:focus" =
      none := by
    rw [WidgetAttributeRule.unknownFinding?, hcolon, Bool.true_or, if_pos rfl]
  have hevent : WidgetAttributeRule.eventFinding? c (focusedButton s s₁) ⟨.click, "go", none, s₁⟩ =
      none := by
    rw [WidgetAttributeRule.eventFinding?, hknown, if_pos rfl]
  have hevents :
      (focusedButton s s₁).events.filterMap
        (WidgetAttributeRule.eventFinding? c (focusedButton s s₁)) = [] :=
    List.filterMap_cons_none hevent
  rw [WidgetAttributeRule.widgetFindings, hsorted, List.filterMap_cons_none hunknown, hevents]
  rfl

/-- The button has the one event, and the rule about attributes has nothing
to say about the other. -/
theorem exists_unreported_focused :
    ∃ d m, Document.read [] (encodeUtf8 focused.write) = (.ok d, []) ∧
    Markup.read (encodeUtf8 focused.write) = .ok m ∧ ∃ e w a, Document.widgetElements m.root = [e] ∧
      d.walk = [w] ∧
      w.kind = .builtin .button ∧ a ∈ e.attributes ∧ EventKind.Marked a.name ∧
      a.name ∈ w.attributes.keys ∧
      (∀ event ∈ w.events, event.event.attributeName ≠ a.name) ∧
      ∀ text settings, WidgetAttributeRule.rule.check ⟨text, d, m, settings⟩ = .ok [] := by
  obtain ⟨s, s₁, s₂, hmarkup, hread⟩ := read_focused
  have hmarked : EventKind.Marked "on_click:focus" := by decide
  refine ⟨_, _, hread, hmarkup, _, _, ⟨"on_click:focus", "go", s₂⟩, rfl, rfl, rfl,
    ?_, hmarked, ?_, ?_, ?_⟩
  · exact List.mem_cons_of_mem _ List.mem_cons_self
  · exact List.mem_cons_self
  · intro event hevent
    obtain rfl := List.mem_singleton.mp hevent
    exact show EventKind.click.attributeName ≠ "on_click:focus" by decide
  · intro text settings
    have hcheck (c : Context) (h : c.document.walk = [focusedButton s s₁]) :
        WidgetAttributeRule.rule.check c =
          .ok (WidgetAttributeRule.widgetFindings c (focusedButton s s₁)) := by
      simp [WidgetAttributeRule.rule, h]
    rw [hcheck _ rfl, widgetFindings_focused]

/-- The rule about attributes for states speaks of it. -/
theorem accounted_of_read_focused :
    ∃ d m, Document.read [] (encodeUtf8 focused.write) = (.ok d, []) ∧
    Markup.read (encodeUtf8 focused.write) = .ok m ∧ ∀ text settings, ∃ invalid,
      ResponsiveAttributeRule.rule.check ⟨text, d, m, settings⟩ = .ok invalid ∧
      ∃ f ∈ invalid, f.message =
        "Invalid state prefix 'on_click' in attribute 'on_click:focus'" := by
  obtain ⟨s, s₁, s₂, hmarkup, hread⟩ := read_focused
  refine ⟨_, _, hread, hmarkup, fun text settings => ?_⟩
  obtain ⟨m, hm, hall⟩ := accounted_of_read hread
  obtain rfl := Except.ok.inj (hmarkup.symm.trans hm)
  obtain ⟨unknown, invalid, -, hinvalid, hmirrors⟩ := hall text settings
  refine ⟨invalid, hinvalid, ?_⟩
  obtain hmirrors | ⟨hnil, -⟩ := hmirrors
  · obtain ⟨-, haccounted⟩ := (List.forall₂_cons.mp hmirrors).1
    have hmem : (⟨"on_click:focus", "go", s₂⟩ : Attribute) ∈ (focusedElement s s₁ s₂).attributes :=
      List.mem_cons_of_mem _ List.mem_cons_self
    have hmarked : EventKind.Marked "on_click:focus" := by decide
    cases haccounted .button rfl _ hmem hmarked nofun with
    | bound among read =>
        obtain rfl := List.mem_singleton.mp among
        have hnone : EventKind.ofAttribute? "on_click:focus" = none := by decide
        cases (EventBinding.parse_of_no_event hnone _ _).symm.trans read
    | unknown colon => exact absurd (show ':' ∈ "on_click:focus".toList by decide) colon
    | invalid _ among _ message =>
        have hstates : ResponsiveAttributeRule.statesText "on_click:focus" = "on_click" := by decide
        refine ⟨_, among, message.trans ?_⟩
        rw [hstates]
        rfl
  · cases hnil

end Focused

end Lint

end UiMarkup
