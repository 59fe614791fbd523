import AlertConsole.Draft.Builder
import AlertConsole.Proofs.Api.Run

/-!
# Runs of a submission

The check of a draft looks at its name alone (`payload_eq`). A draft that fails it makes no request
(`run_submit_of_invalid`). One that passes makes exactly one, and the answer decides the rest
(`run_submit_of_refused`, `run_submit_of_accepted`).
-/

namespace AlertConsole

/-- The policy of a draft, save for the check of its name. -/
def PolicyDraft.policy (d : PolicyDraft) : Policy where
  name := d.name
  matchFields := d.matchSection?
  notMatch := d.notMatchSection?
  crit := d.crit.build?
  warn := d.warn.build?

theorem PolicyDraft.build_of_name {d : PolicyDraft} (h : Text.isBlankText d.name = false) :
    d.build = .ok d.policy := by
  rw [build, h]
  rfl

namespace Draft

/-! ## What is submitted -/

def name : Draft → String
  | escalation d => d.name
  | policy d => d.name

/-- The draft as it is sent: every step, or every section that is complete. -/
def body : Draft → Json
  | escalation d => (Json.array (d.steps.map Step.toJson)).canonical
  | policy d => d.policy.toJson.canonical

theorem payload_eq (d : Draft) :
    d.payload =
      if Text.isBlankText d.name then .error .missingName else .ok (d.name, d.body) := by
  cases d with
  | escalation d => rfl
  | policy d =>
    rw [payload, PolicyDraft.payload, PolicyDraft.build, name]
    rcases Text.isBlankText d.name with _ | _ <;> rfl

theorem payload_of_blank {d : Draft} (h : Text.isBlankText d.name = true) :
    d.payload = .error .missingName := by
  rw [payload_eq, if_pos h]

theorem payload_of_name {d : Draft} (h : Text.isBlankText d.name = false) :
    d.payload = .ok (d.name, d.body) := by
  rw [payload_eq, h]
  rfl

/-! ## Runs -/

variable {σ : Type} (server : Api.Server σ) (consent : Bool) (t : Api.Transcript σ) {d : Draft}

/-- The request that submits a body under a name. -/
def request (kind : DraftKind) (name : String) (body : Json) : Request :=
  .post ((family kind).path name) (some body)

theorem run_submit_of_invalid {cause : DraftError} (h : d.payload = .error cause) :
    Api.run server consent d.submit t = ((.error (.invalid cause), d), t) := by
  rw [submit, h]
  rfl

theorem run_submit_of_refused {name : String} {body : Json} (h : d.payload = .ok (name, body))
    {cause : ApiError}
    (hpost : (server.answer (request d.kind name body) t.server).1 = .error cause) :
    Api.run server consent d.submit t =
      ((.error (.api cause), d), t.called server (request d.kind name body)) := by
  rw [submit, h]
  unfold request at hpost
  simp only [Api.run_bind, Api.run_post, hpost]
  rfl

theorem run_submit_of_accepted {name : String} {body : Json} (h : d.payload = .ok (name, body))
    (hpost : (server.answer (request d.kind name body) t.server).1 = .ok ()) :
    Api.run server consent d.submit t =
      ((.ok name, empty d.kind),
        (t.called server (request d.kind name body)).reported (.submitted d.kind name)) := by
  rw [submit, h]
  unfold request at hpost
  simp only [Api.run_bind, Api.run_post, hpost]
  rfl

/-- A draft that passes its check makes one request, whatever the answer. -/
theorem requests_run_submit {name : String} {body : Json} (h : d.payload = .ok (name, body)) :
    (Api.run server consent d.submit t).2.requests =
      t.requests ++ [request d.kind name body] := by
  rcases hpost : (server.answer (request d.kind name body) t.server).1 with cause | ⟨⟩
  · rw [run_submit_of_refused server consent t h hpost, Api.Transcript.requests_called]
  · rw [run_submit_of_accepted server consent t h hpost, Api.Transcript.requests_reported,
      Api.Transcript.requests_called]

end Draft

end AlertConsole
