import AlertConsole.Proofs.Escalation.Lines
import AlertConsole.Proofs.Text.Blank
import AlertConsole.Proofs.Text.Split

/-!
# Lists typed with commas

The recipients of an e-mail are typed as one text. A comma takes the list apart into the items
before it and those after it (`Transform.commaList_append`), and a text without commas has one item,
or none if it is blank (`Transform.commaList_of_not_mem`). The lists that can be typed are those of
`Transform.IsItem`s (`Transform.exists_commaList_eq_iff`), and each comes back when its items are
joined with commas (`Transform.commaList_intercalate`), so a list that was committed may be typed
again (`EscalationDraft.exists_hasList`).
-/

namespace AlertConsole

open Text

namespace Transform

/-- The items of a list that is typed with commas. -/
def commaList (raw : String) : List String :=
  (commaParts raw.toList).map String.ofList

/-- A text that a list typed with commas can have for an item. -/
structure IsItem (item : String) : Prop where
  ne_empty : item ≠ ""
  not_mem : ',' ∉ item.toList
  trimmed : IsTrimmed item.toList

variable {raw item : String} {items : List String}

theorem apply_splitComma (raw : String) :
    apply splitComma raw = .array ((commaList raw).map .string) := by
  rw [commaList, List.map_map]
  rfl

/-! ## Taking a list apart -/

theorem commaList_append (before after : String) :
    commaList (before ++ "," ++ after) = commaList before ++ commaList after := by
  have htext : (before ++ "," ++ after).toList = before.toList ++ ',' :: after.toList := by simp
  rw [commaList, commaParts, htext, splitAll_append_cons, List.map_append, List.filter_append,
    List.map_append]
  rfl

theorem commaList_of_not_mem (h : ',' ∉ raw.toList) :
    commaList raw = if isBlankText raw then [] else [trim raw] := by
  rw [commaList, commaParts, splitAll_of_not_mem h, List.map_singleton]
  by_cases hblank : isBlankText raw
  · have hnil : trimChars raw.toList = [] := (trimChars_eq_nil_iff _).2 hblank
    rw [hnil, if_pos hblank]
    rfl
  · have hne : trimChars raw.toList ≠ [] := mt (trimChars_eq_nil_iff _).1 hblank
    rw [List.filter_singleton, decide_eq_true hne, cond_true, if_neg hblank]
    rfl

example : commaList " a@x.com,\u2003,b@x.com\t," = ["a@x.com", "b@x.com"] := rfl

theorem isItem_of_mem_commaList (h : item ∈ commaList raw) : IsItem item := by
  obtain ⟨part, hpart, rfl⟩ := List.mem_map.1 h
  obtain ⟨htrimmed, hne⟩ := List.mem_filter.1 hpart
  obtain ⟨between, hbetween, rfl⟩ := List.mem_map.1 htrimmed
  have hcomma : ',' ∉ between := (isJoined_iff.2 rfl).not_mem between hbetween
  constructor
  · rw [ne_eq, ← String.toList_eq_nil_iff, String.toList_ofList]
    exact of_decide_eq_true hne
  · rw [String.toList_ofList]
    exact fun hmem => hcomma (mem_of_mem_trimChars hmem)
  · rw [String.toList_ofList]
    exact isTrimmed_trimChars between

/-! ## Joining the items -/

theorem IsItem.commaList_eq (h : IsItem item) : commaList item = [item] := by
  have htrim : trim item = item := by
    rw [trim, isTrimmed_iff.1 h.trimmed, String.ofList_toList]
  have hblank : ¬isBlankText item := by
    rw [isBlankText_iff_trim, htrim]
    exact h.ne_empty
  rw [commaList_of_not_mem h.not_mem, if_neg hblank, htrim]

theorem commaList_intercalate (h : ∀ item ∈ items, IsItem item) :
    commaList (",".intercalate items) = items := by
  induction items with
  | nil => rfl
  | cons item rest ih =>
    obtain ⟨hitem, hrest⟩ := List.forall_mem_cons.1 h
    cases rest with
    | nil => rw [String.intercalate_singleton, hitem.commaList_eq]
    | cons next rest =>
      rw [String.intercalate_cons_cons, commaList_append, hitem.commaList_eq, ih hrest,
        List.singleton_append]

theorem exists_commaList_eq_iff :
    (∃ raw, commaList raw = items) ↔ ∀ item ∈ items, IsItem item := by
  constructor
  · rintro ⟨raw, rfl⟩ item hitem
    exact isItem_of_mem_commaList hitem
  · exact fun h => ⟨_, commaList_intercalate h⟩

end Transform

/-! ## Committing a list -/

namespace EscalationDraft

open Transform

variable {kind : StepType} {option : OptionField}

/-- Selecting the type, typing the text for the option and adding a step adds one step of this type,
with this value for the option. -/
def Commits (d : EscalationDraft) (kind : StepType) (field text : String) (value : Json) : Prop :=
  ∃ step, ([.selectType kind, .setOption field text, .addStep].foldl edited d).steps =
      d.steps ++ [step] ∧
    step.kind = kind ∧ step.options.get? field = some value

theorem optionText_type (d : EscalationDraft) (text : String) :
    (d.type kind option.name text).optionText kind option = text := by
  simp only [optionText, type, if_true, KeyMap.get?_insert, Option.getD_some]

theorem commits (d : EscalationDraft) (h : option ∈ kind.options) (text : String) :
    d.Commits kind option.name text (option.transform.apply text) := by
  have htyped : (d.selectType kind).edited (.setOption option.name text) =
      (d.selectType kind).type kind option.name text :=
    edited_setOption_of_option? rfl (StepType.option?_name h) text
  refine ⟨⟨kind, ((d.selectType kind).type kind option.name text).currentOptions kind⟩, ?_, rfl,
    ?_⟩
  · show (((d.selectType kind).edited (.setOption option.name text)).edited .addStep).steps = _
    rw [htyped]
    rfl
  · have hvalue := StepType.get?_valued_name h
      (((d.selectType kind).type kind option.name text).optionText kind)
    rwa [optionText_type] at hvalue

/-- The step has these items for an option, and any draft commits them again when they are typed
with commas between them. -/
structure HasList (step : Step) (field : String) (items : List String) : Prop where
  value : step.options.get? field = some (.array (items.map .string))
  isItem : ∀ item ∈ items, IsItem item
  again : ∀ d : EscalationDraft,
    d.Commits step.kind field (",".intercalate items) (.array (items.map .string))

theorem exists_hasList {edits : List EscalationEdit} {step : Step}
    (hstep : step ∈ (ofEdits edits).steps) (h : option ∈ step.kind.options)
    (hcomma : option.transform = .splitComma) : ∃ items, HasList step option.name items := by
  obtain ⟨text, hoptions⟩ := FollowSchemas.ofEdits edits step hstep
  have hitems : ∀ item ∈ commaList (text option), IsItem item := fun _ => isItem_of_mem_commaList
  refine ⟨commaList (text option), ?_, hitems, fun d => ?_⟩
  · rw [hoptions, StepType.get?_valued_name h, hcomma, apply_splitComma]
  · have hagain := d.commits h (",".intercalate (commaList (text option)))
    rwa [hcomma, apply_splitComma, commaList_intercalate hitems] at hagain

/-- The recipients are sent as the items between the commas. Each of them is not empty, has no comma
and no blank at its ends. The items of two texts with a comma between them are those of the one and
then those of the other, and a text without commas has itself for its item, trimmed, unless it is
blank. Typing the items again with commas between them gives the same list, so recipients that were
committed in some step are committed again by any draft. -/
theorem recipients_by_commas :
    (∀ raw, apply .splitComma raw = .array ((commaList raw).map .string) ∧
      (∀ item ∈ commaList raw, IsItem item) ∧
      commaList (",".intercalate (commaList raw)) = commaList raw ∧
      (',' ∉ raw.toList → commaList raw = if isBlankText raw then [] else [trim raw])) ∧
    (∀ a b, commaList (a ++ "," ++ b) = commaList a ++ commaList b) ∧
    (∀ (d : EscalationDraft) (raw : String),
      d.Commits .email "recipients" raw (.array ((commaList raw).map .string))) ∧
    ∀ (edits : List EscalationEdit), ∀ step ∈ (ofEdits edits).steps, step.kind = .email →
      ∃ items, HasList step "recipients" items := by
  have hoption : (⟨"recipients", "To", "", .splitComma⟩ : OptionField) ∈ StepType.email.options :=
    List.mem_cons_self
  refine ⟨fun raw => ⟨apply_splitComma raw, fun _ => isItem_of_mem_commaList, ?_,
    commaList_of_not_mem⟩, commaList_append, fun d raw => ?_, fun edits step hstep hkind => ?_⟩
  · exact commaList_intercalate fun _ => isItem_of_mem_commaList
  · rw [← apply_splitComma]
    exact d.commits hoption raw
  · rw [← hkind] at hoption
    exact exists_hasList hstep hoption rfl

/-- A recipient between blanks, and a step with a blank part and an empty one at the end. -/
theorem recipients_between_blanks :
    ',' ∉ "\u2003a@x.com\n".toList ∧ commaList "\u2003a@x.com\n" = ["a@x.com"] ∧
    ∃ step ∈ (ofEdits [.selectType .email, .setOption "recipients" " a@x.com,\u2003,b@x.com\t,",
        .addStep]).steps, step.kind = .email ∧ ∃ items, HasList step "recipients" items := by
  have hplain : ',' ∉ "\u2003a@x.com\n".toList := by decide
  obtain ⟨hraw, -, hcommits, hlists⟩ := recipients_by_commas
  obtain ⟨step, hsteps, hkind, -⟩ := hcommits empty " a@x.com,\u2003,b@x.com\t,"
  have hstep : step ∈ (ofEdits [.selectType .email,
      .setOption "recipients" " a@x.com,\u2003,b@x.com\t,", .addStep]).steps := by
    rw [ofEdits, hsteps]
    exact List.mem_concat_self
  exact ⟨hplain, (hraw _).2.2.2 hplain, step, hstep, hkind, hlists _ step hstep hkind⟩

end EscalationDraft

end AlertConsole
