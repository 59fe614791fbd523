import AlertConsole.Proofs.Http.Calls

/-!
# What a call makes of its reply

A call to a path reads the token and then has at most one exchange over HTTP, which decides its
outcome (`runs_call_iff`, `exchanges_of_call`). The body of a reply counts only if the reply is one of
success (`arrived_eq_ok_iff`).
-/

namespace AlertConsole

def Request.method : Request → Http.Method
  | .get _ => .get
  | .post _ _ => .post
  | .delete _ => .delete
  | .authenticate _ _ => .get

/-- The document that a call sends along. -/
def Request.body? : Request → Option Json
  | .post _ body => body
  | _ => none

namespace Http.Client

variable {config : Config} {request : Request} {path : String} {m : Message} {fault : Fault}
  {answer : Except ApiError String} {store store' : SessionStore} {log : List (Exchange Host)}

/-! ## Exchanges -/

/-- The requests that went out, each with what came back. -/
def exchanges (log : List (Exchange Host)) : List (Message × Except Fault Reply) :=
  log.filterMap fun
    | ⟨.exchange m, outcome⟩ => some (m, outcome)
    | _ => none

theorem exchanges_append (log log' : List (Exchange Host)) :
    exchanges (log ++ log') = exchanges log ++ exchanges log' :=
  List.filterMap_append

theorem sent_eq_map (log : List (Exchange Host)) : sent log = (exchanges log).map Prod.fst := by
  induction log with
  | nil => rfl
  | cons e rest ih =>
    obtain ⟨m | path | ⟨path, text⟩ | path | event | text | _, r⟩ := e
    · exact congrArg (m :: ·) ih
    all_goals exact ih

theorem exchanges_of_sync (h : store.sync.Runs log store') : exchanges log = [] := by
  have hsent : sent log = [] := sent_of_never (h.never (never_sync (fun _ => id) (fun _ => id) store))
  rw [sent_eq_map] at hsent
  exact List.map_eq_nil_iff.1 hsent

/-! ## Calls -/

/-- The body that an exchange brings. -/
def arrived : Except Fault Reply → Except ApiError String
  | .error fault => .error (.transport fault.message)
  | .ok reply => bodyOf reply

/-- What a call gives for a body. -/
def received : (request : Request) → Except ApiError String → request.Outcome
  | .get _, body => body.bind document
  | .post _ _, body => body.map fun _ => ()
  | .delete _, body => body.map fun _ => ()
  | .authenticate _ _, body => body.bind token

theorem runs_send_error_iff :
    (send (.error fault)).Runs log answer ↔
      log = [] ∧ answer = .error (.transport fault.message) :=
  Dialogue.runs_done_iff

theorem send_ok (m : Message) :
    send (.ok m) = Host.exchange m >>= fun reply => Dialogue.done (arrived reply) := by
  refine congrArg (Host.exchange m >>= ·) (funext fun reply => ?_)
  rcases reply with fault | reply <;> rfl

theorem runs_send_ok_iff :
    (send (.ok m)).Runs log answer ↔
      ∃ reply, log = [⟨.exchange m, reply⟩] ∧ answer = arrived reply := by
  rw [send_ok, Dialogue.runs_bind_iff]
  constructor
  · rintro ⟨reply, first, rest, rfl, hexchange, hdone⟩
    obtain ⟨rfl, rfl⟩ := Dialogue.runs_done_iff.1 hdone
    rw [List.append_nil]
    exact ⟨reply, Dialogue.runs_question_iff.1 hexchange, rfl⟩
  · rintro ⟨reply, rfl, rfl⟩
    exact ⟨reply, [_], [], rfl, Dialogue.runs_question_iff.2 rfl, .done _⟩

/-- A call to a path reads the token, sends what is prepared with it, and gives what that brings. -/
theorem call_eq (hpath : request.path? = some path) (store : SessionStore) :
    call config request store = (do
      let store ← store.sync
      let answer ← send (prepared config store.held.token request)
      pure (received request answer, store)) := by
  cases request with
  | authenticate user password => cases hpath
  | get path | post path body | delete path =>
    rw [call, SessionStore.currentToken, Dialogue.bind_assoc]
    simp only [Dialogue.pure_eq, Dialogue.done_bind]
    exact congrArg (store.sync >>= ·) (funext fun _ => rfl)

theorem runs_call_iff (hpath : request.path? = some path) {outcome : request.Outcome} :
    (call config request store).Runs log (outcome, store') ↔
      ∃ reading sending answer, log = reading ++ sending ∧ store.sync.Runs reading store' ∧
        (send (prepared config store'.held.token request)).Runs sending answer ∧
        outcome = received request answer := by
  rw [call_eq hpath, Dialogue.runs_bind_iff]
  constructor
  · rintro ⟨synced, reading, rest, rfl, hsync, hrest⟩
    obtain ⟨answer, sending, last, rfl, hsend, hdone⟩ := Dialogue.runs_bind_iff.1 hrest
    obtain ⟨rfl, hresult⟩ := Dialogue.runs_done_iff.1 hdone
    obtain ⟨rfl, rfl⟩ := Prod.mk.inj hresult
    exact ⟨reading, sending, answer, by rw [List.append_nil], hsync, hsend, rfl⟩
  · rintro ⟨reading, sending, answer, rfl, hsync, hsend, rfl⟩
    refine ⟨store', reading, sending, rfl, hsync, Dialogue.runs_bind_iff.2 ?_⟩
    exact ⟨answer, sending, [], by rw [List.append_nil], hsend, .done _⟩

theorem never_send {p : Host.Question → Prop} (hexchange : ∀ m, ¬p (.exchange m))
    (request : Except Fault Message) : (send request).Never p := by
  rcases request with fault | m
  · trivial
  · rw [send_ok]
    exact (Dialogue.never_question (I := Host) (hexchange m)).bind fun _ => trivial

/-- A call looks at the session file, reports what is new there and has its exchange, and asks for
nothing else. -/
theorem never_call {p : Host.Question → Prop} (hread : ∀ path, ¬p (.read path))
    (hreport : ∀ event, ¬p (.report event)) (hexchange : ∀ m, ¬p (.exchange m))
    (config : Config) (request : Request) (store : SessionStore) :
    (call config request store).Never p := by
  rcases hpath : request.path? with _ | path
  · obtain ⟨user, password, rfl⟩ := Request.exists_of_path?_eq_none hpath
    -- The request for a token must not be computed here.
    rw [call]
    generalize authMessage config user password = request
    exact (never_send hexchange request).bind fun _ => trivial
  · rw [call_eq hpath]
    exact (never_sync hread hreport store).bind fun _ =>
      (never_send hexchange _).bind fun _ => trivial

/-- The one exchange of a call is with the request that is prepared for it. Without one the call
fails. -/
theorem exchanges_of_call (hpath : request.path? = some path) {outcome : request.Outcome}
    (h : (call config request store).Runs log (outcome, store')) :
    (∃ fault, prepared config store'.held.token request = .error fault ∧ exchanges log = [] ∧
      outcome = received request (.error (.transport fault.message))) ∨
    ∃ m reply, prepared config store'.held.token request = .ok m ∧ exchanges log = [(m, reply)] ∧
      outcome = received request (arrived reply) := by
  obtain ⟨reading, sending, answer, rfl, hsync, hsend, rfl⟩ := (runs_call_iff hpath).1 h
  rw [exchanges_append, exchanges_of_sync hsync, List.nil_append]
  rcases hprepared : prepared config store'.held.token request with fault | m
  · rw [hprepared] at hsend
    obtain ⟨rfl, rfl⟩ := runs_send_error_iff.1 hsend
    exact .inl ⟨fault, rfl, rfl, rfl⟩
  · rw [hprepared] at hsend
    obtain ⟨reply, rfl, rfl⟩ := runs_send_ok_iff.1 hsend
    exact .inr ⟨m, reply, rfl, rfl, rfl⟩

/-- Without a session file a call has nothing but its exchange, which may go either way. -/
theorem runs_call_of_memory (hfile : store.file = none) (hpath : request.path? = some path)
    (hprepared : prepared config store.held.token request = .ok m) (reply : Except Fault Reply) :
    (call config request store).Runs [⟨.exchange m, reply⟩]
      (received request (arrived reply), store) := by
  have hsync : store.sync.Runs [] store := by
    rw [SessionStore.sync, hfile]
    exact .done store
  have hsend : (send (.ok m)).Runs [⟨.exchange m, reply⟩] (arrived reply) :=
    runs_send_ok_iff.2 ⟨reply, rfl, rfl⟩
  rw [← hprepared] at hsend
  exact (runs_call_iff hpath).2 ⟨[], _, _, rfl, hsync, hsend, rfl⟩

theorem arrived_eq_ok_iff {outcome : Except Fault Reply} {body : String} :
    arrived outcome = .ok body ↔ ∃ reply, outcome = .ok reply ∧ reply.isSuccess = true ∧
      reply.body = body := by
  rcases outcome with fault | reply
  · simp [arrived]
  · by_cases hsuccess : reply.isSuccess = true
    · simp [arrived, bodyOf, hsuccess]
    · simp [arrived, bodyOf, hsuccess]

/-! ## Prepared requests -/

/-- A request has the method, the address and the body of a call. -/
structure Carries (config : Config) (request : Request) (m : Message) : Prop where
  method : m.method = request.method
  url : ∀ path ∈ request.path?, urlOf config.baseUrl path = .ok m.url
  body : m.body = request.body?.map Json.compact

theorem carries_of_prepared {token : Option String} (h : prepared config token request = .ok m) :
    Carries config request m := by
  cases request with
  | authenticate user password =>
    rw [prepared, authMessage] at h
    rcases hurl : urlOf config.baseUrl authPath with fault | url
    · rw [hurl] at h
      cases h
    · rw [hurl] at h
      cases h
      exact ⟨rfl, (fun path hpath => nomatch hpath), rfl⟩
  | get path | post path body | delete path =>
    obtain ⟨url, session, hurl, -, rfl⟩ := message_eq_ok_iff.1 h
    refine ⟨rfl, fun path' hpath => ?_, rfl⟩
    cases hpath
    exact hurl

end Http.Client

end AlertConsole
