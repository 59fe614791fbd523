import AlertConsole.Api.Basic
import AlertConsole.Escalation.Step
import AlertConsole.Policy.Basic

/-!
# The configuration on the server

Lists and deletes the escalations and the policies that the server holds.
-/

namespace AlertConsole.Catalog

/-- Decodes a listing. A server without any objects may answer `null`, no text, or the text
`null`. -/
def ofJson {α : Type} (decode : Json → Decoded α) (body : Json) : Except ApiError (KeyMap α) :=
  match body with
  | .null => .ok .empty
  | .string s =>
    if s = "null" ∨ s = "" then .ok .empty else (Decode.map decode (.string s)).toApi
  | v => (Decode.map decode v).toApi

/-! ## Escalations -/

def decodeEscalations : Json → Except ApiError (KeyMap (List Step)) :=
  ofJson (Decode.list Step.ofJson)

def escalations : Dialogue Api (Except ApiError (KeyMap (List Step))) := do
  pure ((← Api.get Family.escalation.listing).bind decodeEscalations)

/-- The names a condition can have as its target. -/
def escalationNames : Dialogue Api (Except ApiError (List String)) := do
  pure ((← escalations).map KeyMap.keys)

def deleteEscalation (name : String) : Dialogue Api (Except ApiError Unit) := do
  match ← Api.delete (Family.escalation.path name) with
  | .error cause => pure (.error cause)
  | .ok () =>
    Api.report (.escalationDeleted name)
    pure (.ok ())

/-! ## Policies -/

def decodePolicies : Json → Except ApiError (KeyMap Policy) :=
  ofJson Policy.ofJson

def policies : Dialogue Api (Except ApiError (KeyMap Policy)) := do
  pure ((← Api.get Family.policy.listing).bind decodePolicies)

def deletePolicy (name : String) : Dialogue Api (Except ApiError Unit) := do
  match ← Api.delete (Family.policy.path name) with
  | .error cause => pure (.error cause)
  | .ok () =>
    Api.report (.policyDeleted name)
    pure (.ok ())

end AlertConsole.Catalog
