import AlertConsole.Api.Basic

/-!
# Runs against a server

A run of a dialogue goes on where the run of its first part ended (`run_bind`), and each question
changes the transcript in one way: a call is added to the requests, a report to the events, and a
question to the operator to those asked.
-/

namespace AlertConsole.Api

variable {σ α β : Type} (server : Server σ) (consent : Bool) (t : Transcript σ)

/-- The transcript after one more call. -/
def Transcript.called (t : Transcript σ) (request : Request) : Transcript σ :=
  { t with
    server := (server.answer request t.server).2
    requests := t.requests ++ [request] }

/-- The transcript after one more report. -/
def Transcript.reported (t : Transcript σ) (event : Event) : Transcript σ :=
  { t with events := t.events ++ [event] }

@[simp] theorem Transcript.requests_called (request : Request) :
    (t.called server request).requests = t.requests ++ [request] := rfl

@[simp] theorem Transcript.server_called (request : Request) :
    (t.called server request).server = (server.answer request t.server).2 := rfl

@[simp] theorem Transcript.requests_reported (event : Event) :
    (t.reported event).requests = t.requests := rfl

@[simp] theorem Transcript.server_reported (event : Event) :
    (t.reported event).server = t.server := rfl

/-! ## Questions in a run -/

@[simp] theorem run_done (a : α) : run server consent (.done a) t = (a, t) := rfl

theorem run_bind (d : Dialogue Api α) (f : α → Dialogue Api β) :
    run server consent (d >>= f) t =
      run server consent (f (run server consent d t).1) (run server consent d t).2 := by
  rw [run, Dialogue.interpret_bind]
  rfl

@[simp] theorem run_get (path : String) :
    run server consent (get path) t =
      ((server.answer (.get path) t.server).1, t.called server (.get path)) := rfl

@[simp] theorem run_post (path : String) (body : Option Json) :
    run server consent (post path body) t =
      ((server.answer (.post path body) t.server).1, t.called server (.post path body)) := rfl

@[simp] theorem run_delete (path : String) :
    run server consent (delete path) t =
      ((server.answer (.delete path) t.server).1, t.called server (.delete path)) := rfl

@[simp] theorem run_report (event : Event) :
    run server consent (report event) t = ((), t.reported event) := rfl

end AlertConsole.Api
