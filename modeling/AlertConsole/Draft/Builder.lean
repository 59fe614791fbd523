import AlertConsole.Api.Basic
import AlertConsole.Escalation.Spec
import AlertConsole.Policy.Draft

/-!
# Submitting a draft

A `Draft` is an escalation or a policy under construction. `submit` checks it, posts it in one
request under its name and starts afresh; a draft that fails the check makes no request, and a
failure of either kind leaves it as it was.
-/

namespace AlertConsole

inductive Draft where
  | escalation (draft : EscalationDraft)
  | policy (draft : PolicyDraft)

namespace Draft

def kind : Draft → DraftKind
  | escalation _ => .escalation
  | policy _ => .policy

/-- The empty draft of a kind. -/
def empty : DraftKind → Draft
  | .escalation => escalation .empty
  | .policy => policy .empty

/-- The draft as an escalation, for one that is. -/
def asEscalation : Draft → Except DraftError EscalationDraft
  | escalation d => .ok d
  | policy _ => .error (.wrongKind .escalation)

/-- The draft as a policy, for one that is. -/
def asPolicy : Draft → Except DraftError PolicyDraft
  | policy d => .ok d
  | escalation _ => .error (.wrongKind .policy)

/-- Where the objects of a kind live on the server. -/
def family : DraftKind → Family
  | .escalation => .escalation
  | .policy => .policy

/-- The name and the body to submit. -/
def payload : Draft → Except DraftError (String × Json)
  | escalation d => d.payload
  | policy d => d.payload

/-- Posts a draft that passes the check, in place of any object of its name. Gives the name, and
the draft to go on with. -/
def submit (d : Draft) : Dialogue Api (Except SubmitError String × Draft) :=
  match d.payload with
  | .error cause => pure (.error (.invalid cause), d)
  | .ok (name, body) => do
    match ← Api.post ((family d.kind).path name) (some body) with
    | .error cause => pure (.error (.api cause), d)
    | .ok () =>
      Api.report (.submitted d.kind name)
      pure (.ok name, empty d.kind)

def cancel (d : Draft) : Draft :=
  empty d.kind

end Draft

end AlertConsole
