import AlertConsole.Proofs.Http.Calls

/-!
# The token in a request

A request has the token in one header if its call goes to a path, and has no token otherwise
(`tokens_of_prepared`). Nothing else of it depends on the token (`bare_of_prepared`).
-/

namespace AlertConsole.Http

/-! ## Headers -/

/-- The values of the header for the token. -/
def Message.tokens (m : Message) : List String :=
  (m.headers.filter (·.1 == sessionHeader)).map (·.2)

/-- The request without that header. -/
def Message.bare (m : Message) : Message :=
  { m with headers := m.headers.filter (·.1 != sessionHeader) }

namespace Client

variable {config : Config} {request : Request} {token token' : Option String} {m m' : Message}

/-- The token that a call is to carry. -/
def carried (request : Request) (token : Option String) : Option String :=
  request.path?.bind fun _ => token

theorem sessionHeaders_eq_ok {session : List (String × String)}
    (h : sessionHeaders token = .ok session) :
    session = token.toList.map fun t => (sessionHeader, t) := by
  rcases token with _ | t
  · cases h
    rfl
  · rw [sessionHeaders] at h
    split at h
    · cases h
      rfl
    · cases h

theorem tokens_of_message {method : Method} {path : String} {body : Option Json}
    (h : message config token method path body = .ok m) : m.tokens = token.toList := by
  obtain ⟨url, session, -, hsession, rfl⟩ := message_eq_ok_iff.1 h
  rw [sessionHeaders_eq_ok hsession]
  rcases token with _ | t <;> rcases body with _ | v <;> rfl

theorem bare_of_message {method : Method} {path : String} {body : Option Json}
    (h : message config token method path body = .ok m) :
    ∃ url, urlOf config.baseUrl path = .ok url ∧ m.bare = ⟨method, url,
      ("accept", jsonType) :: (body.map fun _ => ("content-type", jsonType)).toList,
      body.map Json.compact, config.requestTimeout⟩ := by
  obtain ⟨url, session, hurl, hsession, rfl⟩ := message_eq_ok_iff.1 h
  rw [sessionHeaders_eq_ok hsession]
  refine ⟨url, hurl, ?_⟩
  rcases token with _ | t <;> rcases body with _ | v <;> rfl

/-! ## The request for a call -/

theorem tokens_of_prepared (h : prepared config token request = .ok m) :
    m.tokens = (carried request token).toList := by
  rcases hpath : request.path? with _ | path
  · obtain ⟨user, password, rfl⟩ := Request.exists_of_path?_eq_none hpath
    rw [prepared, authMessage] at h
    rcases hurl : urlOf config.baseUrl authPath with fault | url
    · rw [hurl] at h
      cases h
    · rw [hurl] at h
      cases h
      rfl
  · obtain ⟨method, body, hprepared⟩ := prepared_of_path config hpath
    rw [hprepared] at h
    rw [carried, hpath]
    exact tokens_of_message h

/-- Apart from the header, the request does not depend on the token. -/
theorem bare_of_prepared (h : prepared config token request = .ok m)
    (h' : prepared config token' request = .ok m') : m.bare = m'.bare := by
  rcases hpath : request.path? with _ | path
  · obtain ⟨user, password, rfl⟩ := Request.exists_of_path?_eq_none hpath
    exact congrArg Message.bare (Except.ok.inj (h.symm.trans h'))
  · obtain ⟨method, body, hprepared⟩ := prepared_of_path config hpath
    rw [hprepared] at h h'
    obtain ⟨url, hurl, hbare⟩ := bare_of_message h
    obtain ⟨url', hurl', hbare'⟩ := bare_of_message h'
    obtain rfl := Except.ok.inj (hurl.symm.trans hurl')
    rw [hbare, hbare']

/-- A token that can be sent does not stand in the way of a request. -/
theorem exists_prepared (hsendable : IsSendable token) (h : prepared config token' request = .ok m) :
    ∃ m', prepared config token request = .ok m' := by
  rcases hpath : request.path? with _ | path
  · obtain ⟨user, password, rfl⟩ := Request.exists_of_path?_eq_none hpath
    exact ⟨m, h⟩
  · obtain ⟨method, body, hprepared⟩ := prepared_of_path config hpath
    rw [hprepared] at h ⊢
    obtain ⟨url, -, hurl, -, -⟩ := message_eq_ok_iff.1 h
    exact ⟨_, message_eq_ok_iff.2 ⟨url, _, hurl, sessionHeaders_of_sendable hsendable, rfl⟩⟩

end Client

end AlertConsole.Http
