import AlertConsole.Proofs.Draft.Operation
import AlertConsole.Proofs.Escalation.Codec

/-!
# Editing an escalation

Whatever is typed and however the steps come about, a step has the options of its type and no
others, each with what its transform made of some text (`EscalationDraft.FollowSchemas.ofEdits`). No
option is called like the member for the type, so every such step is read back as it was
(`Step.FollowsSchema.ofJson_toJson`).
-/

namespace AlertConsole

/-! ## Steps of a schema -/

/-- The options of a type with the values that these texts give. -/
def StepType.valued (kind : StepType) (text : OptionField → String) : KeyMap Json :=
  .ofList (kind.options.map fun option => (option.name, option.transform.apply (text option)))

theorem StepType.name_ne_type {kind : StepType} {option : OptionField}
    (h : option ∈ kind.options) : option.name ≠ "type" := by
  have hall : ∀ option ∈ kind.options, option.name ≠ "type" := by
    cases kind <;> decide
  exact hall option h

namespace Step

/-- The step has the options of its type, each with a value that some text gives. -/
def FollowsSchema (s : Step) : Prop :=
  ∃ text, s.options = s.kind.valued text

theorem FollowsSchema.isCanonical {s : Step} (h : s.FollowsSchema) : s.options.IsCanonical := by
  obtain ⟨text, hoptions⟩ := h
  rw [hoptions]
  intro e he
  obtain ⟨option, -, rfl⟩ := List.mem_map.1 (mem_of_mem_sortEntries he)
  exact option.transform.canonical_apply (text option)

theorem FollowsSchema.get?_type {s : Step} (h : s.FollowsSchema) :
    s.options.get? "type" = none := by
  obtain ⟨text, hoptions⟩ := h
  rw [hoptions, StepType.valued, KeyMap.get?_ofList_eq_none_iff]
  intro e he
  obtain ⟨option, hoption, rfl⟩ := List.mem_map.1 he
  exact StepType.name_ne_type hoption

theorem FollowsSchema.ofJson_toJson {s : Step} (h : s.FollowsSchema) :
    ofJson s.toJson.canonical = .ok s := by
  apply (ofJson_toJson_iff h.isCanonical).2
  intro k hk
  obtain rfl := List.mem_singleton.1 hk
  exact h.get?_type

end Step

/-! ## Drafts -/

namespace EscalationDraft

/-- Every step follows the schema of its type. -/
def FollowSchemas (d : EscalationDraft) : Prop :=
  ∀ s ∈ d.steps, s.FollowsSchema

theorem FollowSchemas.of_steps {d r : EscalationDraft} (h : d.FollowSchemas)
    (hsteps : r.steps = d.steps) : r.FollowSchemas := by
  intro s hs
  apply h
  rwa [← hsteps]

theorem setOption_eq_ok_iff {d r : EscalationDraft} {field value : String} :
    d.setOption field value = .ok r ↔
      ∃ kind option, d.stepType = some kind ∧ kind.option? field = some option ∧
        r = d.type kind option.name value := by
  rw [setOption]
  rcases d.stepType with _ | kind
  · simp
  rcases hoption : kind.option? field with _ | option
  · simp [hoption]
  · simp [hoption, eq_comm]

theorem addStep_eq_ok_iff {d r : EscalationDraft} {step : Step} :
    d.addStep = .ok (step, r) ↔
      ∃ kind, d.stepType = some kind ∧ step = ⟨kind, d.currentOptions kind⟩ ∧
        r = { d with steps := d.steps ++ [step] } := by
  rw [EscalationDraft.addStep]
  rcases d.stepType with _ | kind
  · simp
  · constructor
    · rintro ⟨⟩
      exact ⟨kind, rfl, rfl, rfl⟩
    · rintro ⟨_, ⟨⟩, rfl, rfl⟩
      rfl

theorem steps_setOption {d r : EscalationDraft} {field value : String}
    (h : d.setOption field value = .ok r) : r.steps = d.steps := by
  obtain ⟨kind, option, -, -, rfl⟩ := setOption_eq_ok_iff.1 h
  rfl

theorem FollowSchemas.addStep {d r : EscalationDraft} {step : Step} (h : d.FollowSchemas)
    (hr : d.addStep = .ok (step, r)) : r.FollowSchemas := by
  obtain ⟨kind, -, rfl, rfl⟩ := addStep_eq_ok_iff.1 hr
  intro s hs
  rcases List.mem_append.1 hs with hs | hs
  · exact h s hs
  · rw [List.mem_singleton.1 hs]
    exact ⟨d.optionText kind, rfl⟩

theorem FollowSchemas.settle {d : EscalationDraft} {x : Except DraftError EscalationDraft}
    (h : d.FollowSchemas) (hx : ∀ r, x = .ok r → r.FollowSchemas) :
    (settle d x).2.FollowSchemas := by
  rcases x with cause | r
  · exact h
  · exact hx r rfl

/-! ### Steps in one line -/

theorem steps_setSegment {spec : String} {d r : EscalationDraft} {segment : List Char}
    (h : Spec.setSegment spec d segment = .ok r) : r.steps = d.steps := by
  unfold Spec.setSegment at h
  split at h
  · cases h
  · next field value _ =>
    rcases hset : d.setOption (String.ofList (Text.trimChars field)) (String.ofList value)
      with cause | r'
    · rw [hset] at h
      cases h
    · rw [hset] at h
      cases h
      exact steps_setOption hset

theorem steps_setSegments (spec : String) (d : EscalationDraft) (segments : List (List Char)) :
    (Spec.setSegments spec d segments).2.steps = d.steps := by
  induction segments generalizing d with
  | nil => rfl
  | cons segment rest ih =>
    rw [Spec.setSegments]
    rcases hset : Spec.setSegment spec d segment with cause | r
    · rfl
    · simp only [ih r, steps_setSegment hset]

theorem FollowSchemas.applySpec {d : EscalationDraft} (h : d.FollowSchemas) (spec : String) :
    (d.applySpec spec).2.FollowSchemas := by
  unfold EscalationDraft.applySpec
  split
  · exact h
  · next kind _ =>
    have hsteps := steps_setSegments spec (d.selectType kind) (Spec.segments spec)
    split
    · next cause set hset =>
      rw [hset] at hsteps
      exact h.of_steps hsteps
    · next set hset =>
      rw [hset] at hsteps
      have hfollow : set.FollowSchemas := h.of_steps hsteps
      split
      · next step r hadd => exact hfollow.addStep hadd
      · exact hfollow

/-! ### Edits -/

theorem FollowSchemas.perform {d : EscalationDraft} (h : d.FollowSchemas) (edit : EscalationEdit) :
    (d.perform edit).2.FollowSchemas := by
  cases edit with
  | setName name => exact h.of_steps rfl
  | selectType kind => exact h.of_steps rfl
  | setOption field value =>
    apply h.settle
    intro r hr
    exact h.of_steps (steps_setOption hr)
  | addStep =>
    apply h.settle
    intro r hr
    obtain ⟨⟨step, r'⟩, hadd, rfl⟩ := map_eq_ok_iff.1 hr
    exact h.addStep hadd
  | removeStep index =>
    intro s hs
    exact h s (List.mem_of_mem_eraseIdx hs)
  | applySpec spec => exact h.applySpec spec

/-- The draft after an edit; one that fails keeps what was done before it. -/
def edited (d : EscalationDraft) (edit : EscalationEdit) : EscalationDraft :=
  (d.perform edit).2

theorem edited_setOption_of_option? {d : EscalationDraft} {kind : StepType} {field : String}
    {option : OptionField} (hkind : d.stepType = some kind)
    (hoption : kind.option? field = some option) (value : String) :
    d.edited (.setOption field value) = d.type kind option.name value := by
  have hset : d.setOption field value = .ok _ :=
    setOption_eq_ok_iff.2 ⟨kind, option, hkind, hoption, rfl⟩
  rw [edited, perform, hset]
  rfl

/-- The draft that a sequence of edits leads to. -/
def ofEdits (edits : List EscalationEdit) : EscalationDraft :=
  edits.foldl edited empty

theorem FollowSchemas.foldl_edited {d : EscalationDraft} (h : d.FollowSchemas)
    (edits : List EscalationEdit) : (edits.foldl edited d).FollowSchemas := by
  induction edits generalizing d with
  | nil => exact h
  | cons edit edits ih => exact ih (h.perform edit)

theorem FollowSchemas.ofEdits (edits : List EscalationEdit) : (ofEdits edits).FollowSchemas := by
  have hempty : empty.FollowSchemas := by
    intro s hs
    cases hs
  exact hempty.foldl_edited edits

end EscalationDraft

end AlertConsole
