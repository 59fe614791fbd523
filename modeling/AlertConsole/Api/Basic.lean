import AlertConsole.Api.Paths
import AlertConsole.Dialogue
import AlertConsole.Event

/-!
# Calls on the server

A `Request` is one call, with the type of its answer. Work that needs the server is a dialogue over
`Api`: it makes calls, reports events and asks the operator for consent. `Api.run` lets a `Server`
answer, and keeps a `Transcript` of what was asked of it.
-/

namespace AlertConsole

inductive Request where
  | get (path : String)
  | post (path : String) (body : Option Json)
  | delete (path : String)
  | authenticate (user password : String)

/-- What a successful call gives: a document, a token, or nothing. -/
abbrev Request.Answer : Request → Type
  | .get _ => Json
  | .authenticate _ _ => String
  | .post _ _ => Unit
  | .delete _ => Unit

abbrev Request.Outcome (r : Request) : Type :=
  Except ApiError r.Answer

namespace Api

inductive Question where
  | call (request : Request)
  | report (event : Event)
  | confirm (title message : String)

abbrev Answer : Question → Type
  | .call request => request.Outcome
  | .report _ => Unit
  | .confirm _ _ => Bool

end Api

/-- Calls, reports and consent. -/
abbrev Api : Interface := ⟨Api.Question, Api.Answer⟩

namespace Api

/-! ## Questions -/

def get (path : String) : Dialogue Api (Except ApiError Json) :=
  .question (I := Api) (.call (.get path))

def post (path : String) (body : Option Json) : Dialogue Api (Except ApiError Unit) :=
  .question (I := Api) (.call (.post path body))

def delete (path : String) : Dialogue Api (Except ApiError Unit) :=
  .question (I := Api) (.call (.delete path))

def report (event : Event) : Dialogue Api Unit :=
  .question (I := Api) (.report event)

def confirm (title message : String) : Dialogue Api Bool :=
  .question (I := Api) (.confirm title message)

/-! ## Servers -/

/-- A server with states `σ`: how it answers a call, and the state it is in afterwards. -/
structure Server (σ : Type) where
  answer : (request : Request) → σ → request.Outcome × σ

/-- The state of the server, and what was asked so far, the latest last. -/
structure Transcript (σ : Type) where
  server : σ
  requests : List Request
  events : List Event
  asked : List (String × String)

namespace Transcript

def start {σ : Type} (server : σ) : Transcript σ :=
  ⟨server, [], [], []⟩

end Transcript

/-- Answers one question: calls go to the server, and consent is `consent`. -/
def answer {σ : Type} (server : Server σ) (consent : Bool) :
    (q : Question) → Transcript σ → Answer q × Transcript σ
  | .call request, t =>
    let (outcome, state) := server.answer request t.server
    (outcome, { t with server := state, requests := t.requests ++ [request] })
  | .report event, t => ((), { t with events := t.events ++ [event] })
  | .confirm title message, t => (consent, { t with asked := t.asked ++ [(title, message)] })

/-- Runs a dialogue against a server. -/
def run {σ α : Type} (server : Server σ) (consent : Bool) (d : Dialogue Api α)
    (t : Transcript σ) : α × Transcript σ :=
  d.interpret (m := StateM (Transcript σ)) (answer server consent) t

end Api

end AlertConsole
