import AlertConsole.Proofs.Escalation.Grammar

/-!
# Typing options and committing steps

A history of edits determines which type is selected and what has been assigned to the options of
every type (`EscalationDraft.stepType_ofEdits`, `EscalationDraft.recalls_ofEdits`). The text of an
option is what was assigned to it last, however often another type was selected in between, and a
step is a snapshot of these texts that nothing but its removal takes away
(`EscalationDraft.typing_is_kept`).
-/

namespace AlertConsole

/-! ## Histories -/

namespace EscalationEdit

/-- The type that an edit selects. -/
def selects? : EscalationEdit → Option StepType
  | selectType kind => some kind
  | applySpec spec => StepType.ofName? (Spec.typeName spec)
  | _ => none

/-- What an edit assigns while a type is selected. -/
def assignments (selected : Option StepType) : EscalationEdit → List Assignment
  | setOption field value =>
    match selected with
    | none => []
    | some kind => ((kind.option? field).map fun option => ⟨kind, option.name, value⟩).toList
  | applySpec spec =>
    match StepType.ofName? (Spec.typeName spec) with
    | none => []
    | some kind => Spec.leading kind (Spec.segments spec)
  | _ => []

/-- The type that a history of edits selects last. -/
def selected? (edits : List EscalationEdit) : Option StepType :=
  (edits.filterMap selects?).getLast?

/-- What a history of edits assigns, each time for the type that is selected then. -/
def assigned (selected : Option StepType) : List EscalationEdit → List Assignment
  | [] => []
  | edit :: rest => edit.assignments selected ++ assigned (edit.selects?.or selected) rest

/-- The edit takes out a step. -/
def IsRemoval (edit : EscalationEdit) : Prop :=
  ∃ index, edit = removeStep index

end EscalationEdit

/-- The text of an option: the last that was assigned to it, or its default. -/
def lastText (made : List Assignment) (kind : StepType) (option : OptionField) : String :=
  (lastAssigned? made kind option.name).getD option.default

/-! ## One edit -/

namespace EscalationDraft

variable {d : EscalationDraft} {made : List Assignment}

theorem edited_setOption (d : EscalationDraft) (field value : String) :
    d.edited (.setOption field value) =
      (EscalationEdit.assignments d.stepType (.setOption field value)).foldl assign d := by
  rw [edited, perform, setOption]
  rcases d.stepType with _ | kind
  · rfl
  · rcases hoption : kind.option? field with _ | option
    · simp [settle, EscalationEdit.assignments, hoption]
    · simp [settle, EscalationEdit.assignments, hoption, assign]

/-- A line selects its type, makes its leading assignments and adds some step or none. -/
theorem exists_edited_applySpec (d : EscalationDraft) {spec : String} {kind : StepType}
    (hkind : StepType.ofName? (Spec.typeName spec) = some kind) :
    ∃ added, d.edited (.applySpec spec) =
      { (Spec.leading kind (Spec.segments spec)).foldl assign (d.selectType kind) with
        steps := d.steps ++ added } := by
  have hsteps := steps_foldl_assign (d.selectType kind) (Spec.leading kind (Spec.segments spec))
  rw [edited, perform]
  by_cases h : ∀ segment ∈ Spec.segments spec, ∃ a, Spec.Assigns kind segment a
  · rw [applySpec_of_assigned hkind d h, edited_addStep, hsteps]
    exact ⟨_, rfl⟩
  · obtain ⟨cause, hcause⟩ := applySpec_of_wrong hkind d h
    refine ⟨[], ?_⟩
    rw [hcause, List.append_nil]
    exact congrArg (EscalationDraft.mk _ _ _) hsteps

theorem edited_applySpec_of_unknown (d : EscalationDraft) {spec : String}
    (h : StepType.ofName? (Spec.typeName spec) = none) : d.edited (.applySpec spec) = d := by
  rw [edited, perform, applySpec_of_unknown d h]

theorem stepType_edited (d : EscalationDraft) (edit : EscalationEdit) :
    (d.edited edit).stepType = edit.selects?.or d.stepType := by
  cases edit with
  | setOption field value => rw [edited_setOption, stepType_foldl_assign]; rfl
  | addStep => rw [edited_addStep]; rfl
  | applySpec spec =>
    rw [EscalationEdit.selects?]
    rcases hkind : StepType.ofName? (Spec.typeName spec) with _ | kind
    · rw [edited_applySpec_of_unknown d hkind, Option.none_or]
    · obtain ⟨added, hedited⟩ := d.exists_edited_applySpec hkind
      rw [hedited]
      exact stepType_foldl_assign _ _
  | _ => rfl

theorem Recalls.edited (h : d.Recalls made) (edit : EscalationEdit) :
    (d.edited edit).Recalls (made ++ edit.assignments d.stepType) := by
  cases edit with
  | setOption field value =>
    rw [edited_setOption]
    exact h.foldl_assign _
  | applySpec spec =>
    rw [EscalationEdit.assignments]
    rcases hkind : StepType.ofName? (Spec.typeName spec) with _ | kind
    · rw [edited_applySpec_of_unknown d hkind, List.append_nil]
      exact h
    · obtain ⟨added, hedited⟩ := d.exists_edited_applySpec hkind
      have hselected : (d.selectType kind).Recalls made := h
      rw [hedited]
      exact hselected.foldl_assign _
  | addStep =>
    rw [edited_addStep]
    exact (List.append_nil made).symm ▸ h
  | _ => exact (List.append_nil made).symm ▸ h

/-- No edit but a removal changes or takes away a step. -/
theorem steps_prefix_edited (d : EscalationDraft) {edit : EscalationEdit} (h : ¬edit.IsRemoval) :
    d.steps <+: (d.edited edit).steps := by
  cases edit with
  | setOption field value =>
    have hsteps : (d.edited (.setOption field value)).steps = d.steps := by
      rw [edited_setOption, steps_foldl_assign]
    exact hsteps ▸ List.prefix_rfl
  | addStep =>
    rw [edited_addStep]
    exact List.prefix_append _ _
  | removeStep index => exact absurd ⟨index, rfl⟩ h
  | applySpec spec =>
    rcases hkind : StepType.ofName? (Spec.typeName spec) with _ | kind
    · exact (edited_applySpec_of_unknown d hkind).symm ▸ List.prefix_rfl
    · obtain ⟨added, hedited⟩ := d.exists_edited_applySpec hkind
      rw [hedited]
      exact List.prefix_append _ _
  | _ => exact List.prefix_rfl

/-! ## Histories of edits -/

theorem stepType_foldl_edited (d : EscalationDraft) (edits : List EscalationEdit) :
    (edits.foldl edited d).stepType = (EscalationEdit.selected? edits).or d.stepType := by
  induction edits generalizing d with
  | nil => rfl
  | cons edit rest ih =>
    rw [List.foldl_cons, ih, stepType_edited, ← Option.or_assoc]
    congr 1
    rw [EscalationEdit.selected?, EscalationEdit.selected?, List.filterMap_cons]
    rcases edit.selects? with _ | kind
    · exact Option.or_none
    · rw [List.getLast?_cons]
      rcases (rest.filterMap EscalationEdit.selects?).getLast? with _ | last <;> rfl

theorem stepType_ofEdits (edits : List EscalationEdit) :
    (ofEdits edits).stepType = EscalationEdit.selected? edits :=
  (stepType_foldl_edited empty edits).trans Option.or_none

theorem Recalls.foldl_edited (h : d.Recalls made) (edits : List EscalationEdit) :
    (edits.foldl EscalationDraft.edited d).Recalls
      (made ++ EscalationEdit.assigned d.stepType edits) := by
  induction edits generalizing d made with
  | nil => rwa [EscalationEdit.assigned, List.append_nil]
  | cons edit rest ih =>
    -- The selection that the rest starts from is the one that the first edit leaves.
    have hrest := ih (h.edited edit)
    rwa [stepType_edited, List.append_assoc] at hrest

theorem recalls_ofEdits (edits : List EscalationEdit) :
    (ofEdits edits).Recalls (EscalationEdit.assigned none edits) := by
  have hempty : empty.Recalls [] := fun _ _ => rfl
  exact hempty.foldl_edited edits

theorem optionText_ofEdits (edits : List EscalationEdit) (kind : StepType) (option : OptionField) :
    (ofEdits edits).optionText kind option =
      lastText (EscalationEdit.assigned none edits) kind option := by
  rw [optionText, recalls_ofEdits edits kind option.name, lastText]

theorem steps_prefix_foldl_edited (d : EscalationDraft) {later : List EscalationEdit}
    (h : ∀ edit ∈ later, ¬edit.IsRemoval) : d.steps <+: (later.foldl edited d).steps := by
  induction later generalizing d with
  | nil => exact List.prefix_rfl
  | cons edit rest ih =>
    obtain ⟨hedit, hrest⟩ := List.forall_mem_cons.1 h
    exact (d.steps_prefix_edited hedit).trans (ih (d.edited edit) hrest)

/-- The options of the selected type have the texts that were assigned to them last, a step takes
these texts as they are at the time, and only its removal takes it away again. Without a selected
type, and for an option that the type does not have, nothing happens. -/
theorem typing_is_kept (edits : List EscalationEdit) :
    (ofEdits edits).stepType = EscalationEdit.selected? edits ∧
      (∀ kind option, EscalationEdit.selected? edits = some kind → option ∈ kind.options →
        (ofEdits edits).optionValue? option.name =
            some (lastText (EscalationEdit.assigned none edits) kind option) ∧
          ∀ value, ((ofEdits edits).perform (.setOption option.name value)).1 = .ok ()) ∧
      (∀ field value, EscalationEdit.selected? edits = none →
        (ofEdits edits).perform (.setOption field value) =
            (.error (.draft .missingStepType), ofEdits edits) ∧
          (ofEdits edits).perform .addStep = (.error (.draft .missingStepType), ofEdits edits)) ∧
      (∀ kind field value, EscalationEdit.selected? edits = some kind →
        (∀ option ∈ kind.options, option.name ≠ field) →
        (ofEdits edits).perform (.setOption field value) =
          (.error (.draft (.unknownOption kind field)), ofEdits edits)) ∧
      (∀ kind, EscalationEdit.selected? edits = some kind →
        ∃ step, (ofEdits edits).addStep =
            .ok (step, { ofEdits edits with steps := (ofEdits edits).steps ++ [step] }) ∧
          step.kind = kind ∧
          ∀ field, step.options.get? field = (kind.option? field).map fun option =>
            option.transform.apply (lastText (EscalationEdit.assigned none edits) kind option)) ∧
      (∀ index, (ofEdits edits).removeStep index =
        ((ofEdits edits).steps[index]?, { ofEdits edits with
          steps := (ofEdits edits).steps.take index ++ (ofEdits edits).steps.drop (index + 1) })) ∧
      ∀ later : List EscalationEdit, (∀ edit ∈ later, ¬edit.IsRemoval) →
        (ofEdits edits).steps <+: (ofEdits (edits ++ later)).steps := by
  have hselected := stepType_ofEdits edits
  refine ⟨hselected, fun kind option hkind hoption => ⟨?_, fun value => ?_⟩,
    fun field value hnone => ⟨?_, ?_⟩, fun kind field value hkind hfield => ?_,
    fun kind hkind => ?_, fun index => ?_, fun later hlater => ?_⟩
  · rw [optionValue?, hselected, hkind, Option.bind_eq_bind, Option.bind_some,
      StepType.option?_name hoption, Option.bind_eq_bind, Option.bind_some, optionText_ofEdits]
    rfl
  · simp only [perform, setOption, hselected, hkind, StepType.option?_name hoption, settle]
  · simp only [perform, setOption, hselected, hnone, settle]
  · simp only [perform, addStep, hselected, hnone, settle, Except.map]
  · have hoption : kind.option? field = none := by
      rw [StepType.option?, List.find?_eq_none]
      simpa using hfield
    simp only [perform, setOption, hselected, hkind, hoption, settle]
  · refine ⟨⟨kind, (ofEdits edits).currentOptions kind⟩, ?_, rfl, fun field => ?_⟩
    · simp only [addStep, hselected, hkind]
    · have hvalued := kind.get?_valued ((ofEdits edits).optionText kind) field
      simp only [optionText_ofEdits] at hvalued
      exact hvalued
  · rw [removeStep, List.eraseIdx_eq_take_drop_succ]
  · rw [ofEdits, ofEdits, List.foldl_append]
    exact steps_prefix_foldl_edited _ hlater

end EscalationDraft

end AlertConsole
