import AlertConsole.Proofs.Escalation.Lines
import AlertConsole.Proofs.Text.Blank
import AlertConsole.Proofs.Text.Split

/-!
# The grammar of steps in one line

Where a specification is cut is settled by its delimiters alone (`Spec.says_iff`), and what a
segment of it assigns by the first `=` in it (`Spec.assignment?_eq_some_iff`). A specification is
applied exactly if it follows the grammar. Otherwise the segments before the first wrong one stay
applied and no step is made (`EscalationDraft.applied_by_grammar`).
-/

namespace AlertConsole

open Text (trimChars)

/-! ## How a specification is written -/

namespace Spec

/-- The specification names a type and gives these segments. The type stands before the first `:`,
or is all there is; the segments behind it are separated by `;`, and blank ones do not count. -/
def Says (spec typeName : String) (given : List (List Char)) : Prop :=
  ∃ typeText options segments, ':' ∉ typeText ∧
    (spec.toList = typeText ++ ':' :: options ∨ spec.toList = typeText ∧ options = []) ∧
    Text.IsJoined ';' segments options ∧
    typeName = String.ofList (trimChars typeText) ∧
    given = segments.filter fun segment => trimChars segment ≠ []

/-- The segment assigns what is behind its first `=` to the option that is named before it. -/
def Assigns (kind : StepType) (segment : List Char) (a : Assignment) : Prop :=
  ∃ field value, '=' ∉ field ∧ segment = field ++ '=' :: value ∧
    a = ⟨kind, String.ofList (trimChars field), String.ofList value⟩ ∧
    ∃ option ∈ kind.options, option.name = a.field

variable {spec typeName : String} {given : List (List Char)} {kind : StepType}
  {segment : List Char} {a : Assignment}

theorem parts_eq_iff {typeText options : List Char} :
    parts spec = (typeText, options) ↔ ':' ∉ typeText ∧
      (spec.toList = typeText ++ ':' :: options ∨ spec.toList = typeText ∧ options = []) := by
  rw [parts]
  constructor
  · intro h
    rcases hsplit : Text.splitOnce ':' spec.toList with _ | ⟨before, after⟩
    · rw [hsplit, Option.getD_none, Prod.mk.injEq] at h
      obtain ⟨rfl, rfl⟩ := h
      exact ⟨Text.splitOnce_eq_none_iff.1 hsplit, .inr ⟨rfl, rfl⟩⟩
    · rw [hsplit, Option.getD_some, Prod.mk.injEq] at h
      obtain ⟨rfl, rfl⟩ := h
      obtain ⟨hbefore, htext⟩ := Text.splitOnce_eq_some_iff.1 hsplit
      exact ⟨hbefore, .inl htext⟩
  · rintro ⟨hmem, htext | ⟨htext, rfl⟩⟩
    · rw [htext, Text.splitOnce_append hmem, Option.getD_some]
    · rw [htext, Text.splitOnce_eq_none hmem, Option.getD_none]

/-- Every specification says exactly one thing. -/
theorem says_iff :
    Says spec typeName given ↔ typeName = Spec.typeName spec ∧ given = Spec.segments spec := by
  have hblank : (fun segment => decide (trimChars segment ≠ [])) =
      fun segment : List Char => !segment.all Text.isBlank := by
    funext segment
    simp only [ne_eq, Text.trimChars_eq_nil_iff, decide_not, Bool.decide_eq_true]
  constructor
  · rintro ⟨typeText, options, segments, hmem, htext, hjoined, rfl, rfl⟩
    have hparts := parts_eq_iff.2 ⟨hmem, htext⟩
    rw [Spec.typeName, Spec.segments, hparts, ← Text.isJoined_iff.1 hjoined, hblank]
    exact ⟨rfl, rfl⟩
  · rintro ⟨rfl, rfl⟩
    obtain ⟨typeText, options, hparts⟩ : ∃ t o, parts spec = (t, o) := ⟨_, _, rfl⟩
    obtain ⟨hmem, htext⟩ := parts_eq_iff.1 hparts
    rw [Spec.typeName, Spec.segments, hparts, ← hblank]
    exact ⟨typeText, options, _, hmem, htext, Text.isJoined_iff.2 rfl, rfl, rfl⟩

theorem assignment?_eq_some_iff : assignment? kind segment = some a ↔ Assigns kind segment a := by
  rw [assignment?]
  simp only [Option.bind_eq_bind, Option.bind_eq_some_iff, Option.pure_def, Option.some.injEq]
  constructor
  · rintro ⟨⟨field, value⟩, hsplit, option, hoption, rfl⟩
    obtain ⟨hfield, rfl⟩ := Text.splitOnce_eq_some_iff.1 hsplit
    exact ⟨field, value, hfield, rfl, by rw [StepType.name_of_option? hoption], option,
      List.mem_of_find?_eq_some hoption, rfl⟩
  · rintro ⟨field, value, hfield, rfl, rfl, hoption⟩
    obtain ⟨option, hoption⟩ := StepType.exists_option?_iff.2 hoption
    exact ⟨(field, value), Text.splitOnce_append hfield value, option, hoption,
      by rw [StepType.name_of_option? hoption]⟩

/-! ## Segments before the first wrong one -/

/-- What is assigned by the segments before the first that assigns nothing. -/
def leading (kind : StepType) : List (List Char) → List Assignment
  | [] => []
  | segment :: rest =>
    match assignment? kind segment with
    | none => []
    | some a => a :: leading kind rest

theorem exists_of_mem_leading {segments : List (List Char)} (h : a ∈ leading kind segments) :
    ∃ segment, Assigns kind segment a := by
  induction segments with
  | nil => cases h
  | cons segment rest ih =>
    rw [leading] at h
    rcases hsegment : assignment? kind segment with _ | first
    · rw [hsegment] at h
      cases h
    · rw [hsegment] at h
      rcases List.mem_cons.1 h with rfl | h
      · exact ⟨segment, assignment?_eq_some_iff.1 hsegment⟩
      · exact ih h

theorem leading_append {good : List (List Char)} {assignments : List Assignment}
    (h : List.Forall₂ (Assigns kind) good assignments) (rest : List (List Char)) :
    leading kind (good ++ rest) = assignments ++ leading kind rest := by
  induction h with
  | nil => rfl
  | cons hassigns _ ih =>
    rw [List.cons_append, leading, assignment?_eq_some_iff.2 hassigns, List.cons_append, ← ih]

theorem leading_cons_of_not {bad : List Char} (h : ¬∃ a, Assigns kind bad a)
    (rest : List (List Char)) : leading kind (bad :: rest) = [] := by
  have hnone : assignment? kind bad = none := by
    rw [Option.eq_none_iff_forall_ne_some]
    exact fun a ha => h ⟨a, assignment?_eq_some_iff.1 ha⟩
  rw [leading, hnone]

theorem assigns_of_forall₂ {segments : List (List Char)} {assignments : List Assignment}
    (h : List.Forall₂ (Assigns kind) segments assignments) :
    ∀ segment ∈ segments, ∃ a, Assigns kind segment a := by
  induction h with
  | nil => simp
  | cons hassigns _ ih => exact List.forall_mem_cons.2 ⟨⟨_, hassigns⟩, ih⟩

/-- Some segment is the first that assigns nothing, unless each of them assigns something. -/
theorem exists_first_wrong {segments : List (List Char)}
    (h : ¬∀ segment ∈ segments, ∃ a, Assigns kind segment a) :
    ∃ good bad rest assignments, segments = good ++ bad :: rest ∧
      List.Forall₂ (Assigns kind) good assignments ∧ ¬∃ a, Assigns kind bad a := by
  induction segments with
  | nil => exact absurd (by simp) h
  | cons segment rest ih =>
    by_cases hsegment : ∃ a, Assigns kind segment a
    · have hrest : ¬∀ segment ∈ rest, ∃ a, Assigns kind segment a := by
        rw [List.forall_mem_cons, not_and] at h
        exact h hsegment
      obtain ⟨a, ha⟩ := hsegment
      obtain ⟨good, bad, rest', assignments, rfl, hgood, hbad⟩ := ih hrest
      exact ⟨segment :: good, bad, rest', a :: assignments, rfl, hgood.cons ha, hbad⟩
    · exact ⟨[], segment, rest, [], rfl, .nil, hsegment⟩

end Spec

/-! ## Assignments one by one -/

/-- The edit that makes an assignment while its type is selected. -/
def Assignment.edit (a : Assignment) : EscalationEdit :=
  .setOption a.field a.value

namespace EscalationDraft

variable {d r : EscalationDraft} {kind : StepType} {assignments : List Assignment}

theorem typed_foldl_assign_of_ne (d : EscalationDraft) {k : StepType}
    (h : ∀ a ∈ assignments, a.kind ≠ k) : (assignments.foldl assign d).typed k = d.typed k := by
  induction assignments generalizing d with
  | nil => rfl
  | cons a rest ih =>
    obtain ⟨ha, hrest⟩ := List.forall_mem_cons.1 h
    exact (ih (d.assign a) hrest).trans (if_neg (Ne.symm ha))

theorem edited_addStep (d : EscalationDraft) :
    d.edited .addStep =
      { d with
        steps := d.steps ++ d.stepType.toList.map fun kind => ⟨kind, d.currentOptions kind⟩ } := by
  obtain ⟨name, stepType, typed, steps⟩ := d
  cases stepType with
  | none => simp [edited, perform, addStep, settle]
  | some kind => rfl

theorem edited_edit {a : Assignment} (hkind : d.stepType = some kind) {segment : List Char}
    (h : Spec.Assigns kind segment a) : d.edited a.edit = d.assign a := by
  obtain ⟨field, value, -, -, rfl, hoption⟩ := h
  obtain ⟨option, hoption⟩ := StepType.exists_option?_iff.2 hoption
  rw [Assignment.edit, edited_setOption_of_option? hkind hoption,
    StepType.name_of_option? hoption]
  rfl

theorem foldl_edited_edit (hkind : d.stepType = some kind)
    (h : ∀ a ∈ assignments, ∃ segment, Spec.Assigns kind segment a) :
    (assignments.map Assignment.edit).foldl edited d = assignments.foldl assign d := by
  induction assignments generalizing d with
  | nil => rfl
  | cons a rest ih =>
    obtain ⟨⟨segment, ha⟩, hrest⟩ := List.forall_mem_cons.1 h
    have hassign : (d.assign a).stepType = some kind := hkind
    rw [List.map_cons, List.foldl_cons, List.foldl_cons, edited_edit hkind ha, ih hassign hrest]

/-! ## Applying a line -/

theorem snd_setSegments (hkind : d.stepType = some kind) (spec : String)
    (segments : List (List Char)) :
    (Spec.setSegments spec d segments).2 = (Spec.leading kind segments).foldl assign d := by
  induction segments generalizing d with
  | nil => rfl
  | cons segment rest ih =>
    have hsegment := setSegment_eq hkind spec segment
    rw [Spec.setSegments, Spec.leading]
    rcases ha : Spec.assignment? kind segment with _ | a
    · rw [ha, Option.map_none] at hsegment
      rcases hset : Spec.setSegment spec d segment with cause | r
      · rfl
      · rw [hset] at hsegment
        cases hsegment
    · rw [ha, Option.map_some, toOption_eq_some_iff] at hsegment
      have hassign : (d.assign a).stepType = some kind := hkind
      rw [hsegment]
      exact ih hassign

/-- The edits that select a type and make these assignments. -/
def applying (kind : StepType) (assignments : List Assignment) : List EscalationEdit :=
  .selectType kind :: assignments.map Assignment.edit

/-- The draft of a line that was given up: the type is selected and some assignments are made, and
nothing else has changed. -/
structure GivesUp (d : EscalationDraft) (kind : StepType) (assignments : List Assignment)
    (r : EscalationDraft) : Prop where
  applied : r = (applying kind assignments).foldl edited d
  stepType : r.stepType = some kind
  name : r.name = d.name
  steps : r.steps = d.steps
  others : ∀ k, k ≠ kind → r.typed k = d.typed k
  unassigned : ∀ field, (∀ a ∈ assignments, a.field ≠ field) →
    (r.typed kind).get? field = (d.typed kind).get? field

/-- The draft of a line that was applied: these assignments are made, and one step is added, with
what the options of its type have by then. -/
structure CarriesOut (d : EscalationDraft) (kind : StepType) (assignments : List Assignment)
    (r : EscalationDraft) : Prop where
  applied : r = (applying kind assignments ++ [EscalationEdit.addStep]).foldl edited d
  stepType : r.stepType = some kind
  name : r.name = d.name
  typed : ∀ k field, (r.typed k).get? field =
    (lastAssigned? assignments k field).or ((d.typed k).get? field)
  steps : ∃ step : Step, r.steps = d.steps ++ [step] ∧ step.kind = kind ∧
    ∀ field, step.options.get? field = (kind.option? field).map fun option =>
      option.transform.apply
        ((lastAssigned? assignments kind option.name).getD (d.optionText kind option))

theorem foldl_edited_applying (d : EscalationDraft)
    (h : ∀ a ∈ assignments, ∃ segment, Spec.Assigns kind segment a) :
    (applying kind assignments).foldl edited d = assignments.foldl assign (d.selectType kind) :=
  foldl_edited_edit rfl h

theorem givesUp_foldl_assign (d : EscalationDraft)
    (h : ∀ a ∈ assignments, ∃ segment, Spec.Assigns kind segment a) :
    d.GivesUp kind assignments (assignments.foldl assign (d.selectType kind)) where
  applied := (foldl_edited_applying d h).symm
  stepType := stepType_foldl_assign _ _
  name := name_foldl_assign _ _
  steps := steps_foldl_assign _ _
  others := by
    intro k hk
    refine typed_foldl_assign_of_ne (d.selectType kind) fun a ha => ?_
    obtain ⟨segment, field, value, -, -, rfl, -⟩ := h a ha
    exact Ne.symm hk
  unassigned := by
    intro field hfield
    have hnone := lastAssigned?_eq_none_iff.2 fun a ha (_ : a.kind = kind) => hfield a ha
    rw [get?_typed_foldl_assign, hnone, Option.none_or]
    rfl

theorem carriesOut_edited_addStep (d : EscalationDraft)
    (h : ∀ a ∈ assignments, ∃ segment, Spec.Assigns kind segment a) :
    d.CarriesOut kind assignments
      ((assignments.foldl assign (d.selectType kind)).edited .addStep) := by
  have hselected : (assignments.foldl assign (d.selectType kind)).stepType = some kind :=
    stepType_foldl_assign _ _
  rw [edited_addStep]
  refine ⟨?_, hselected, name_foldl_assign _ _, fun k field => get?_typed_foldl_assign _ _ _ _, ?_⟩
  · rw [List.foldl_concat, foldl_edited_applying d h, edited_addStep]
  · rw [hselected]
    refine ⟨⟨kind, _⟩, congrArg (· ++ _) (steps_foldl_assign _ _), rfl, fun field => ?_⟩
    have hvalued := kind.get?_valued
      ((assignments.foldl assign (d.selectType kind)).optionText kind) field
    simp only [optionText_foldl_assign] at hvalued
    exact hvalued

variable {spec typeName : String} {given : List (List Char)}

theorem applySpec_of_unknown (d : EscalationDraft)
    (h : StepType.ofName? (Spec.typeName spec) = none) :
    d.applySpec spec = (.error (.draft (.unknownStepType (Spec.typeName spec))), d) := by
  rw [applySpec, h]

theorem fst_setSegments_eq_ok_iff (hkind : d.stepType = some kind) (spec : String)
    (segments : List (List Char)) :
    (Spec.setSegments spec d segments).1 = .ok () ↔
      ∀ segment ∈ segments, ∃ a, Spec.Assigns kind segment a := by
  have hcompleted := setSegments_eq hkind spec segments
  have hall : (∀ segment ∈ segments, ∃ a, Spec.Assigns kind segment a) ↔
      segments.mapM (Spec.assignment? kind) ≠ none := by
    simp only [ne_eq, mapM_eq_none_iff, not_exists, not_and, Option.ne_none_iff_exists',
      Spec.assignment?_eq_some_iff]
  rw [hall, ne_eq, ← Option.map_eq_none_iff, ← hcompleted]
  rcases Spec.setSegments spec d segments with ⟨_ | _, r⟩ <;> simp [completed?]

section Kinds

variable {spec : String} (hkind : StepType.ofName? (Spec.typeName spec) = some kind)

include hkind

theorem applySpec_of_assigned (d : EscalationDraft)
    (h : ∀ segment ∈ Spec.segments spec, ∃ a, Spec.Assigns kind segment a) :
    d.applySpec spec = (.ok (), ((Spec.leading kind (Spec.segments spec)).foldl assign
      (d.selectType kind)).edited .addStep) := by
  have hselect : (d.selectType kind).stepType = some kind := rfl
  have hsnd := snd_setSegments hselect spec (Spec.segments spec)
  have hfst := (fst_setSegments_eq_ok_iff hselect spec (Spec.segments spec)).2 h
  have hselected := (stepType_foldl_assign (d.selectType kind)
    (Spec.leading kind (Spec.segments spec))).trans hselect
  have hset : Spec.setSegments spec (d.selectType kind) (Spec.segments spec) = (.ok (), _) :=
    Prod.ext hfst hsnd
  rw [applySpec, hkind]
  simp only [hset, edited, perform, addStep, hselected]
  rfl

/-- A line with a wrong segment keeps what is assigned before it. -/
theorem applySpec_of_wrong (d : EscalationDraft)
    (h : ¬∀ segment ∈ Spec.segments spec, ∃ a, Spec.Assigns kind segment a) :
    ∃ cause, d.applySpec spec = (.error cause,
      (Spec.leading kind (Spec.segments spec)).foldl assign (d.selectType kind)) := by
  have hselect : (d.selectType kind).stepType = some kind := rfl
  have hsnd := snd_setSegments hselect spec (Spec.segments spec)
  have hfst := mt (fst_setSegments_eq_ok_iff hselect spec (Spec.segments spec)).1 h
  rw [applySpec, hkind]
  rcases hset : Spec.setSegments spec (d.selectType kind) (Spec.segments spec)
    with ⟨cause | ⟨⟩, r⟩
  · rw [hset] at hsnd
    simp only [hset]
    exact ⟨cause, Prod.ext rfl hsnd⟩
  · rw [hset] at hfst
    exact absurd rfl hfst

/-- Where each segment makes its assignment, the line comes to these and one step. -/
theorem carriesOut_applySpec (d : EscalationDraft)
    (h : List.Forall₂ (Spec.Assigns kind) (Spec.segments spec) assignments) :
    d.CarriesOut kind assignments (d.applySpec spec).2 := by
  have hassigned := Spec.assigns_of_forall₂ h
  have hleading := Spec.leading_append h []
  rw [List.append_nil, Spec.leading, List.append_nil] at hleading
  rw [applySpec_of_assigned hkind d hassigned, hleading]
  exact carriesOut_edited_addStep d fun a ha => Spec.exists_of_mem_leading (hleading ▸ ha)

theorem givesUp_of_error (d : EscalationDraft) {cause : SpecError}
    (hfailed : (d.applySpec spec).1 = .error cause) :
    ∃ good bad rest assignments, Spec.segments spec = good ++ bad :: rest ∧
      List.Forall₂ (Spec.Assigns kind) good assignments ∧ (¬∃ a, Spec.Assigns kind bad a) ∧
      d.GivesUp kind assignments (d.applySpec spec).2 := by
  -- `addStep` cannot fail once the type is selected, so some segment is to blame.
  have hwrong : ¬∀ segment ∈ Spec.segments spec, ∃ a, Spec.Assigns kind segment a := by
    intro hassigned
    rw [applySpec_of_assigned hkind d hassigned] at hfailed
    cases hfailed
  obtain ⟨good, bad, rest, assignments, hsegments, hgood, hbad⟩ := Spec.exists_first_wrong hwrong
  obtain ⟨cause', hresult⟩ := applySpec_of_wrong hkind d hwrong
  have hleading := Spec.leading_append hgood (bad :: rest)
  rw [← hsegments, Spec.leading_cons_of_not hbad, List.append_nil] at hleading
  refine ⟨good, bad, rest, assignments, hsegments, hgood, hbad, ?_⟩
  rw [hresult, ← hleading]
  exact givesUp_foldl_assign d fun a ha => Spec.exists_of_mem_leading ha

end Kinds

theorem fst_applySpec_eq_ok_iff (d : EscalationDraft) (spec : String) :
    (d.applySpec spec).1 = .ok () ↔ ∃ kind : StepType, kind.name = Spec.typeName spec ∧
      ∀ segment ∈ Spec.segments spec, ∃ a, Spec.Assigns kind segment a := by
  constructor
  · intro hok
    rcases hkind : StepType.ofName? (Spec.typeName spec) with _ | kind
    · rw [applySpec_of_unknown d hkind] at hok
      cases hok
    · refine ⟨kind, StepType.ofName?_eq_some_iff.1 hkind, ?_⟩
      by_contra hwrong
      obtain ⟨cause, hcause⟩ := applySpec_of_wrong hkind d hwrong
      rw [hcause] at hok
      cases hok
  · rintro ⟨kind, hname, hassigned⟩
    rw [applySpec_of_assigned (StepType.ofName?_eq_some_iff.2 hname) d hassigned]

/-- A line is applied exactly if it names a type and each of its segments assigns a text to an
option of that type; it comes to a selection, these assignments and one step. With an unknown type
nothing changes, and with a wrong segment what comes before it stays assigned. -/
theorem applied_by_grammar (d : EscalationDraft) (spec : String) :
    (∃! said : String × List (List Char), Spec.Says spec said.1 said.2) ∧
      ∀ typeName given, Spec.Says spec typeName given →
        ((d.applySpec spec).1 = .ok () ↔ ∃ kind : StepType, kind.name = typeName ∧
          ∀ segment ∈ given, ∃ a, Spec.Assigns kind segment a) ∧
        (∀ (kind : StepType) (assignments : List Assignment), kind.name = typeName →
          List.Forall₂ (Spec.Assigns kind) given assignments →
          d.CarriesOut kind assignments (d.applySpec spec).2) ∧
        ((∀ kind : StepType, kind.name ≠ typeName) →
          d.applySpec spec = (.error (.draft (.unknownStepType typeName)), d)) ∧
        ∀ (kind : StepType) (cause : SpecError), kind.name = typeName →
          (d.applySpec spec).1 = .error cause →
          ∃ good bad rest assignments, given = good ++ bad :: rest ∧
            List.Forall₂ (Spec.Assigns kind) good assignments ∧ (¬∃ a, Spec.Assigns kind bad a) ∧
            d.GivesUp kind assignments (d.applySpec spec).2 := by
  refine ⟨⟨(Spec.typeName spec, Spec.segments spec), Spec.says_iff.2 ⟨rfl, rfl⟩, ?_⟩, ?_⟩
  · rintro ⟨typeName, given⟩ hsays
    exact Prod.ext (Spec.says_iff.1 hsays).1 (Spec.says_iff.1 hsays).2
  intro typeName given hsays
  obtain ⟨rfl, rfl⟩ := Spec.says_iff.1 hsays
  refine ⟨d.fst_applySpec_eq_ok_iff spec, fun kind assignments hname hassigned => ?_,
    fun hunknown => ?_, fun kind cause hname hfailed => ?_⟩
  · exact carriesOut_applySpec (StepType.ofName?_eq_some_iff.2 hname) d hassigned
  · refine applySpec_of_unknown d (Option.eq_none_iff_forall_ne_some.2 fun kind hkind => ?_)
    exact hunknown kind (StepType.ofName?_eq_some_iff.1 hkind)
  · exact givesUp_of_error (StepType.ofName?_eq_some_iff.2 hname) d hfailed

end EscalationDraft

end AlertConsole
