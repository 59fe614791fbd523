import AlertConsole.Draft.Error
import AlertConsole.Escalation.Step

/-!
# Escalations under construction

What is typed for an option is kept for each type of step, so that selecting another type and
coming back loses nothing. `addStep` commits a snapshot of the values of the selected type.
-/

namespace AlertConsole

structure EscalationDraft where
  name : String
  stepType : Option StepType
  /-- What was typed for the options of each type. -/
  typed : StepType → KeyMap String
  steps : List Step

namespace EscalationDraft

def empty : EscalationDraft :=
  ⟨"", none, fun _ => .empty, []⟩

def setName (d : EscalationDraft) (name : String) : EscalationDraft :=
  { d with name }

def selectType (d : EscalationDraft) (kind : StepType) : EscalationDraft :=
  { d with stepType := some kind }

/-! ## Options -/

/-- The current text of an option: what was typed for it last, or its default. -/
def optionText (d : EscalationDraft) (kind : StepType) (option : OptionField) : String :=
  ((d.typed kind).get? option.name).getD option.default

/-- The text of an option of the selected type. -/
def optionValue? (d : EscalationDraft) (field : String) : Option String := do
  let kind ← d.stepType
  let option ← kind.option? field
  pure (d.optionText kind option)

/-- Records what is typed for an option of a type. -/
def type (d : EscalationDraft) (kind : StepType) (field value : String) : EscalationDraft :=
  { d with typed := fun k => if k = kind then (d.typed k).insert field value else d.typed k }

def setOption (d : EscalationDraft) (field value : String) :
    Except DraftError EscalationDraft :=
  match d.stepType with
  | none => .error .missingStepType
  | some kind =>
    match kind.option? field with
    | none => .error (.unknownOption kind field)
    | some option => .ok (d.type kind option.name value)

/-! ## Steps -/

/-- The values that a step of this type would be committed with. -/
def currentOptions (d : EscalationDraft) (kind : StepType) : KeyMap Json :=
  .ofList (kind.options.map fun option =>
    (option.name, option.transform.apply (d.optionText kind option)))

/-- Commits a step of the selected type at the end of the list. -/
def addStep (d : EscalationDraft) : Except DraftError (Step × EscalationDraft) :=
  match d.stepType with
  | none => .error .missingStepType
  | some kind =>
    let step := ⟨kind, d.currentOptions kind⟩
    .ok (step, { d with steps := d.steps ++ [step] })

/-- Takes out the step at `index`, if there is one. -/
def removeStep (d : EscalationDraft) (index : Nat) : Option Step × EscalationDraft :=
  (d.steps[index]?, { d with steps := d.steps.eraseIdx index })

def stepsJson (d : EscalationDraft) : Json :=
  .array (d.steps.map Step.toJson)

/-- The name and the body to submit. -/
def payload (d : EscalationDraft) : Except DraftError (String × Json) :=
  if Text.isBlankText d.name then .error .missingName
  else .ok (d.name, d.stepsJson.canonical)

end EscalationDraft

end AlertConsole
