import AlertConsole.Http.Client
import AlertConsole.Proofs.Dialogue

/-!
# What a call sends

A call sends the one request that is made for it with the token of the store, if that can be made,
and nothing else (`sent_of_call`).
-/

namespace AlertConsole

/-- The path of a call that goes to one. -/
def Request.path? : Request → Option String
  | .get path => some path
  | .post path _ => some path
  | .delete path => some path
  | .authenticate _ _ => none

theorem Request.exists_of_path?_eq_none {request : Request} (h : request.path? = none) :
    ∃ user password, request = .authenticate user password := by
  cases request with
  | authenticate user password => exact ⟨user, password, rfl⟩
  | _ => cases h

namespace Http.Client

variable {config : Config} {request : Request} {token : Option String} {path : String}
  {log : List (Exchange Host)} {store store' : SessionStore}

/-! ## Requests -/

/-- The token can be sent, or there is none. -/
def IsSendable (token : Option String) : Prop :=
  ∀ t ∈ token, isHeaderValue t = true

theorem sessionHeaders_of_sendable (h : IsSendable token) :
    sessionHeaders token = .ok (token.toList.map fun t => (sessionHeader, t)) := by
  rcases token with _ | t
  · rfl
  · rw [sessionHeaders, if_pos (h t rfl)]
    rfl

theorem message_eq_ok_iff {method : Method} {body : Option Json} {m : Message} :
    message config token method path body = .ok m ↔
      ∃ url session, urlOf config.baseUrl path = .ok url ∧ sessionHeaders token = .ok session ∧
        m = ⟨method, url, ("accept", jsonType) :: session ++
          (body.map fun _ => ("content-type", jsonType)).toList, body.map Json.compact,
          config.requestTimeout⟩ := by
  unfold message
  rcases urlOf config.baseUrl path with fault | url
  · constructor
    · rintro ⟨⟩
    · rintro ⟨url, session, hurl, -⟩
      cases hurl
  rcases sessionHeaders token with fault | session
  · constructor
    · rintro ⟨⟩
    · rintro ⟨url, session, -, hsession, -⟩
      cases hsession
  constructor
  · intro h
    exact ⟨url, session, rfl, rfl, (Except.ok.inj h).symm⟩
  · rintro ⟨_, _, hurl, hsession, rfl⟩
    cases hurl
    cases hsession
    rfl

/-- The request for a call. Only the request for a token does without one. -/
def prepared (config : Config) (token : Option String) : Request → Except Fault Message
  | .get path => message config token .get path none
  | .post path body => message config token .post path body
  | .delete path => message config token .delete path none
  | .authenticate user password => authMessage config user password

theorem prepared_of_path (config : Config) (h : request.path? = some path) :
    ∃ method body, ∀ token,
      prepared config token request = message config token method path body := by
  rcases request with _ | ⟨_, body⟩ | _ | _
  · cases h
    exact ⟨.get, none, fun _ => rfl⟩
  · cases h
    exact ⟨.post, body, fun _ => rfl⟩
  · cases h
    exact ⟨.delete, none, fun _ => rfl⟩
  · cases h

/-! ## Logs -/

/-- The requests that went out in a log. -/
def sent (log : List (Exchange Host)) : List Message :=
  log.filterMap fun
    | ⟨.exchange m, _⟩ => some m
    | _ => none

theorem sent_append (log log' : List (Exchange Host)) :
    sent (log ++ log') = sent log ++ sent log' :=
  List.filterMap_append

def IsExchange : Host.Question → Prop
  | .exchange _ => True
  | _ => False

theorem sent_of_never (h : ∀ e ∈ log, ¬IsExchange e.1) : sent log = [] := by
  rw [sent, List.filterMap_eq_nil_iff]
  intro e he
  have hquestion := h e he
  rcases e with ⟨m | path | ⟨path, text⟩ | path | event | text | _, r⟩
  · exact absurd trivial hquestion
  all_goals rfl

/-- Reading the token takes no more than a look at the file and a report. -/
theorem never_sync {p : Host.Question → Prop} (hread : ∀ path, ¬p (.read path))
    (hreport : ∀ event, ¬p (.report event)) (store : SessionStore) : store.sync.Never p := by
  unfold SessionStore.sync
  rcases store.file with _ | path
  · trivial
  refine (Dialogue.never_question (I := Host) (hread path)).bind fun content => ?_
  rcases SessionStore.sessionOf? content with _ | session
  · trivial
  by_cases hsame : session = store.held
  · simp only [hsame, if_true]
    trivial
  · simp only [hsame, if_false]
    exact (Dialogue.never_question (I := Host) (hreport _)).bind fun _ => trivial

theorem runs_currentToken
    (h : store.currentToken.Runs log (token, store')) :
    sent log = [] ∧ token = store'.held.token := by
  obtain ⟨synced, first, rest, rfl, hsync, hrest⟩ := Dialogue.runs_bind_iff.1 h
  obtain ⟨rfl, hresult⟩ := Dialogue.runs_done_iff.1 hrest
  obtain ⟨rfl, rfl⟩ := Prod.mk.inj hresult
  have hsent : sent first = [] := sent_of_never (hsync.never (never_sync (fun _ => id) (fun _ => id) store))
  rw [List.append_nil]
  exact ⟨hsent, rfl⟩

/-! ## Calls -/

theorem sent_of_send {request : Except Fault Message} {answer : Except ApiError String}
    (h : (send request).Runs log answer) : sent log = request.toOption.toList := by
  rcases request with fault | m
  · rw [(Dialogue.runs_done_iff.1 h).1]
    rfl
  · obtain ⟨reply, first, rest, rfl, hexchange, hrest⟩ := Dialogue.runs_bind_iff.1 h
    have hnone : rest = [] := by
      rcases reply with fault | reply
      · exact (Dialogue.runs_done_iff.1 hrest).1
      · exact (Dialogue.runs_done_iff.1 hrest).1
    rw [hnone, Dialogue.runs_question_iff.1 hexchange]
    rfl

/-- A call for a path reads the token, and sends the request that is made with it. -/
theorem call_of_path (config : Config) (hpath : request.path? = some path) :
    ∃ result : Except ApiError String → request.Outcome, ∀ store,
      call config request store = (do
        let (token, store) ← store.currentToken
        let answer ← send (prepared config token request)
        pure (result answer, store)) := by
  cases request with
  | get path => exact ⟨fun body => body.bind document, fun _ => rfl⟩
  | post path body => exact ⟨fun answer => answer.map fun _ => (), fun _ => rfl⟩
  | delete path => exact ⟨fun answer => answer.map fun _ => (), fun _ => rfl⟩
  | authenticate user password => cases hpath

theorem sent_of_call {outcome : request.Outcome}
    (h : (call config request store).Runs log (outcome, store')) :
    sent log = (prepared config store'.held.token request).toOption.toList := by
  rcases hpath : request.path? with _ | path
  · obtain ⟨user, password, rfl⟩ := Request.exists_of_path?_eq_none hpath
    obtain ⟨answer, first, rest, rfl, hsend, hdone⟩ := Dialogue.runs_bind_iff.1 h
    rw [(Dialogue.runs_done_iff.1 hdone).1, List.append_nil]
    exact sent_of_send hsend
  · obtain ⟨result, hcall⟩ := call_of_path config hpath
    rw [hcall] at h
    obtain ⟨⟨token, synced⟩, first, rest, rfl, htoken, hrest⟩ := Dialogue.runs_bind_iff.1 h
    obtain ⟨answer, second, last, rfl, hsend, hdone⟩ := Dialogue.runs_bind_iff.1 hrest
    obtain ⟨rfl, hresult⟩ := Dialogue.runs_done_iff.1 hdone
    obtain ⟨-, rfl⟩ := Prod.mk.inj hresult
    obtain ⟨hnone, rfl⟩ := runs_currentToken htoken
    rw [List.append_nil, sent_append, hnone, List.nil_append]
    exact sent_of_send hsend

/-- A call for a path goes to its address. -/
theorem url_of_sent {outcome : request.Outcome}
    (h : (call config request store).Runs log (outcome, store'))
    (hpath : request.path? = some path) : ∀ m ∈ sent log, urlOf config.baseUrl path = .ok m.url := by
  obtain ⟨method, body, hprepared⟩ := prepared_of_path config hpath
  intro m hm
  rw [sent_of_call h, hprepared] at hm
  rcases hmessage : message config store'.held.token method path body with fault | m'
  · rw [hmessage] at hm
    cases hm
  · rw [hmessage] at hm
    obtain rfl := List.mem_singleton.1 hm
    obtain ⟨url, session, hurl, -, rfl⟩ := message_eq_ok_iff.1 hmessage
    exact hurl

theorem exists_sent {outcome : request.Outcome} {url : Url}
    (h : (call config request store).Runs log (outcome, store'))
    (hpath : request.path? = some path) (hurl : urlOf config.baseUrl path = .ok url)
    (hsendable : IsSendable store'.held.token) : ∃ m, sent log = [m] := by
  obtain ⟨method, body, hprepared⟩ := prepared_of_path config hpath
  have hsession := sessionHeaders_of_sendable hsendable
  rw [sent_of_call h, hprepared, message_eq_ok_iff.2 ⟨url, _, hurl, hsession, rfl⟩]
  exact ⟨_, rfl⟩

end Http.Client

end AlertConsole
