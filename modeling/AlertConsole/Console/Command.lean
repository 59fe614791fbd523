import AlertConsole.Draft.Error
import AlertConsole.Escalation.Spec
import AlertConsole.Session.Store

/-!
# Commands

What an operator can ask of the console, and the ways in which a command fails.
-/

namespace AlertConsole.Console

inductive Format where
  | human
  | json
  | ndjson
  deriving DecidableEq

def Format.ofName? (name : String) : Option Format :=
  if name = "human" then some .human
  else if name = "json" then some .json
  else if name = "ndjson" then some .ndjson
  else none

/-- The chips, the count and the target of a condition. -/
structure ConditionArguments where
  chips : List (String × String)
  occurrences : Nat
  escalation : Option String

structure PolicyArguments where
  name : String
  matchChips : List (String × String)
  notMatchChips : List (String × String)
  notMatchOccurrences : Nat
  crit : ConditionArguments
  warn : ConditionArguments

inductive Command where
  | login (user password : String)
  | logout
  | status
  | incidents (format : Format)
  | resolve (key : String)
  | listEscalations
  | deleteEscalation (name : String)
  | createEscalation (name : String) (specs : List String)
  | listPolicies
  | deletePolicy (name : String)
  | createPolicy (policy : PolicyArguments)
  | listVersions
  | revert (hash : String) (assumeYes : Bool)

/-- What the console is started for: one command, or one of the two activities that go on. -/
inductive Activity where
  | run (command : Command)
  /-- Shows every new list of incidents, until it is interrupted. -/
  | watch (format : Format)
  /-- The dashboard. -/
  | view

/-- Why a command failed. -/
inductive CommandError where
  | badCredentials
  | session (cause : SessionError)
  | api (cause : ApiError)
  | draft (cause : DraftError)
  | spec (cause : SpecError)
  | submit (cause : SubmitError)

def CommandError.message : CommandError → String
  | badCredentials => "Invalid username/password"
  | session cause => cause.message
  | api cause => cause.message
  | draft cause => cause.message
  | spec cause => cause.message
  | submit cause => cause.message

end AlertConsole.Console
