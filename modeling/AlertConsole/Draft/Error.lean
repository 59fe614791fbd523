import AlertConsole.Api.Error
import AlertConsole.Escalation.StepType

/-!
# Faults of a draft
-/

namespace AlertConsole

inductive DraftKind where
  | escalation
  | policy
  deriving DecidableEq

def DraftKind.name : DraftKind → String
  | escalation => "escalation"
  | policy => "policy"

inductive DraftError where
  | missingName
  | missingStepType
  | unknownStepType (name : String)
  | unknownOption (kind : StepType) (field : String)
  | emptyChip
  /-- The draft is not of the kind that was reached for. -/
  | wrongKind (wanted : DraftKind)
  deriving DecidableEq

def DraftError.message : DraftError → String
  | missingName => "a name is required"
  | missingStepType => "select a step type first"
  | unknownStepType name => "unknown step type " ++ name
  | unknownOption kind field => s!"{kind.name} steps have no option named {field}"
  | emptyChip => "chip key and value must both be set"
  | wrongKind wanted => s!"draft is not a {wanted.name} draft"

/-- Why a draft was not submitted. -/
inductive SubmitError where
  | invalid (cause : DraftError)
  | api (cause : ApiError)

def SubmitError.message : SubmitError → String
  | invalid cause => cause.message
  | api cause => cause.message

end AlertConsole
