import AlertConsole.Proofs.Http.Token
import AlertConsole.Proofs.Outcome
import AlertConsole.Proofs.Session.Sharing

/-!
# Calls between logins and logouts

Programs make calls, log in and log out in any order, each with a store of its own. Every call to a
path carries the token that is in force when it is made; for programs that share a session file this
is the one of the last login or logout of any of them. Nothing but the header depends on the tokens
(`token_in_header_alone`).
-/

namespace AlertConsole.Programs

open Http (Message)
open Http.Client (IsSendable carried prepared sent)
open SessionStore (sessionOf?)

/-! ## One call -/

section Call

variable {ι : Type} (config : Config) (s : SessionStore) (h : MemoryHost) (request : Request)

theorem store_call {path : String} (hpath : request.path? = some path) :
    (h.run (Http.Client.call config request s)).1.2 = s.synced h := by
  obtain ⟨result, hcall⟩ := Http.Client.call_of_path config hpath
  have htoken := (s.run_reading h Session.token).1
  rw [hcall, MemoryHost.run_bind, MemoryHost.run_bind]
  exact congrArg Prod.snd htoken

theorem store_authenticate (user password : String) :
    (h.run (Http.Client.call config (.authenticate user password) s)).1.2 = s := by
  rw [Http.Client.call, MemoryHost.run_bind]
  rfl

/-- The token in force for a program. -/
def token (p : Programs ι) (i : ι) : Option String :=
  ((p.stores i).current p.host).token

/-- What a program sends with a call. -/
def sending (p : Programs ι) (i : ι) : List Message :=
  sent ((Http.Client.call config request (p.stores i)).trace MemoryHost.answer p.host)

theorem sending_eq (p : Programs ι) (i : ι) :
    sending config request p i = (prepared config (p.token i) request).toOption.toList := by
  have hsent := Http.Client.sent_of_call (Dialogue.runs_trace MemoryHost.answer
    (Http.Client.call config request (p.stores i)) p.host)
  rcases hpath : request.path? with _ | path
  · obtain ⟨user, password, rfl⟩ := Request.exists_of_path?_eq_none hpath
    show _ = (Http.Client.authMessage config user password).toOption.toList
    exact hsent
  · have hstore := store_call config (p.stores i) p.host request hpath
    have htoken : p.token i = ((p.stores i).synced p.host).held.token := by
      rw [SessionStore.held_synced, token]
    rw [htoken, ← hstore]
    exact hsent

end Call

/-! ## Deeds -/

/-- What a program does: something with its session, or a call. -/
inductive Deed where
  | operation (op : SessionOperation)
  | call (request : Request)

/-- A call of a program, with the token that was in force when it was made. -/
structure Departure (ι : Type) where
  program : ι
  request : Request
  token : Option String
  messages : List Message

variable {ι : Type}

namespace Departure

variable (config : ι → Config)

/-- The departure of a call that is prepared with the token in force. -/
structure IsOf (d : Departure ι) (call : ι × Request) : Prop where
  program : d.program = call.1
  request : d.request = call.2
  messages : d.messages = (prepared (config call.1) d.token call.2).toOption.toList

/-- At most one request goes out, with the token in force in its header if it is for a path. One goes
out if the token can be sent and the request could be made without it. -/
structure IsProper (d : Departure ι) : Prop where
  once : d.messages.length ≤ 1
  carries : ∀ m ∈ d.messages, m.tokens = (carried d.request d.token).toList
  goesOut : IsSendable d.token → ∀ m, prepared (config d.program) none d.request = .ok m →
    ∃ m', d.messages = [m'] ∧ m'.bare = m.bare

/-- Departures that nobody can tell apart who does not look at the header for the token. -/
structure Alike (d d' : Departure ι) : Prop where
  program : d.program = d'.program
  request : d.request = d'.request
  messages : ∀ m ∈ d.messages, ∀ m' ∈ d'.messages,
    m.method = m'.method ∧ m.url = m'.url ∧ m.body = m'.body ∧ m.bare = m'.bare
  number : IsSendable d.token → IsSendable d'.token → d.messages.length = d'.messages.length

variable {config} {d d' : Departure ι} {c : ι × Request}

theorem prepared_of_mem (h : d.IsOf config c) {m : Message} (hm : m ∈ d.messages) :
    prepared (config c.1) d.token c.2 = .ok m := by
  rw [h.messages] at hm
  rcases hprepared : prepared (config c.1) d.token c.2 with fault | m'
  · rw [hprepared] at hm
    cases hm
  · rw [hprepared] at hm
    rw [List.mem_singleton.1 hm]

theorem IsOf.isProper (h : d.IsOf config c) : d.IsProper config where
  once := by
    rw [h.messages]
    rcases prepared (config c.1) d.token c.2 with fault | m
    · exact Nat.zero_le 1
    · exact Nat.le_refl 1
  carries m hm := by
    rw [h.request]
    exact Http.Client.tokens_of_prepared (prepared_of_mem h hm)
  goesOut hsendable m hm := by
    rw [h.program, h.request] at hm
    obtain ⟨m', hm'⟩ := Http.Client.exists_prepared hsendable hm
    refine ⟨m', ?_, Http.Client.bare_of_prepared hm' hm⟩
    rw [h.messages, hm']
    rfl

theorem IsOf.alike (h : d.IsOf config c) (h' : d'.IsOf config c) : d.Alike d' where
  program := h.program.trans h'.program.symm
  request := h.request.trans h'.request.symm
  messages m hm m' hm' := by
    have hbare := Http.Client.bare_of_prepared (prepared_of_mem h hm) (prepared_of_mem h' hm')
    have hmethod : m.bare.method = m'.bare.method := by rw [hbare]
    have hurl : m.bare.url = m'.bare.url := by rw [hbare]
    have hbody : m.bare.body = m'.bare.body := by rw [hbare]
    exact ⟨hmethod, hurl, hbody, hbare⟩
  number hsendable hsendable' := by
    rw [h.messages, h'.messages]
    rcases hprepared : prepared (config c.1) d.token c.2 with fault | m
    · rcases hprepared' : prepared (config c.1) d'.token c.2 with fault' | m'
      · rfl
      · obtain ⟨m, hm⟩ := Http.Client.exists_prepared hsendable hprepared'
        rw [hprepared] at hm
        cases hm
    · obtain ⟨m', hm'⟩ := Http.Client.exists_prepared hsendable' hprepared
      rw [hm']
      rfl

end Departure

/-! ## Runs -/

variable [DecidableEq ι] (config : ι → Config)

def perform (p : Programs ι) : ι × Deed → Programs ι
  | (i, .operation op) => (p.step i op).2
  | (i, .call request) => (p.turn i (Http.Client.call (config i) request)).2

/-- The calls of a run, in the order in which they are made. -/
def departures (p : Programs ι) : List (ι × Deed) → List (Departure ι)
  | [] => []
  | (i, .operation op) :: rest => (perform config p (i, .operation op)).departures rest
  | (i, .call request) :: rest =>
    ⟨i, request, p.token i, sending (config i) request p i⟩ ::
      (perform config p (i, .call request)).departures rest

/-- Logins and logouts succeed, and no call changes the file at `path`. -/
def Undisturbed (path : String) (p : Programs ι) : List (ι × Deed) → Prop
  | [] => True
  | (i, .operation op) :: rest =>
    op.Succeeds (p.step i op).1 ∧ (perform config p (i, .operation op)).Undisturbed path rest
  | (i, .call request) :: rest =>
    (perform config p (i, .call request)).host.readFile path = p.host.readFile path ∧
      (perform config p (i, .call request)).Undisturbed path rest

/-- The token of the last login or logout before each call. -/
def lastTokens (session : Session) : List (ι × Deed) → List (Option String)
  | [] => []
  | (_, .operation op) :: rest => lastTokens (op.written?.getD session) rest
  | (_, .call _) :: rest => session.token :: lastTokens session rest

/-- Who makes which call. -/
def calls : List (ι × Deed) → List (ι × Request)
  | [] => []
  | (_, .operation _) :: rest => calls rest
  | (i, .call request) :: rest => (i, request) :: calls rest

theorem departures_isOf (p : Programs ι) (deeds : List (ι × Deed)) :
    List.Forall₂ (Departure.IsOf config) (p.departures config deeds) (calls deeds) := by
  induction deeds generalizing p with
  | nil => exact .nil
  | cons deed rest ih =>
    obtain ⟨i, op | request⟩ := deed
    · exact ih _
    · exact .cons ⟨rfl, rfl, sending_eq (config i) request p i⟩ (ih _)

omit [DecidableEq ι] in
theorem isProper_of_mem {ds : List (Departure ι)} {cs : List (ι × Request)}
    (h : List.Forall₂ (Departure.IsOf config) ds cs) : ∀ d ∈ ds, d.IsProper config := by
  induction h with
  | nil => exact fun d hd => nomatch hd
  | cons hd _ ih => exact List.forall_mem_cons.2 ⟨hd.isProper, ih⟩

omit [DecidableEq ι] in
theorem forall₂_alike {ds ds' : List (Departure ι)} {cs : List (ι × Request)}
    (h : List.Forall₂ (Departure.IsOf config) ds cs)
    (h' : List.Forall₂ (Departure.IsOf config) ds' cs) : List.Forall₂ Departure.Alike ds ds' := by
  induction h generalizing ds' with
  | nil =>
    cases h'
    exact .nil
  | cons hd _ ih =>
    rcases h' with _ | ⟨hd', hrest'⟩
    exact .cons (hd.alike hd') (ih hrest')

/-! ## Which token is in force -/

variable {config} {p : Programs ι} {path : String} {session : Session}

omit [DecidableEq ι] in
theorem Shares.token (h : p.Shares path session) (i : ι) : p.token i = session.token := by
  rw [Programs.token, h.current i]

theorem Shares.call (h : p.Shares path session) {i : ι} {request : Request}
    (hfile : (perform config p (i, .call request)).host.readFile path = p.host.readFile path) :
    (perform config p (i, .call request)).Shares path session := by
  have hstore : ((perform config p (i, .call request)).stores i).file = some path := by
    show ((p.turn i (Http.Client.call (config i) request)).2.stores i).file = some path
    rw [stores_turn_self]
    rcases hpath : request.path? with _ | path'
    · obtain ⟨user, password, rfl⟩ := Request.exists_of_path?_eq_none hpath
      rw [store_authenticate, h.file i]
    · rw [store_call (config i) (p.stores i) p.host request hpath, SessionStore.file_synced,
        h.file i]
  exact h.turn hstore ((congrArg sessionOf? hfile).trans h.stored)

/-- The token of a call is that of the last login or logout of any program. -/
theorem Shares.tokens {deeds : List (ι × Deed)} (h : p.Shares path session)
    (hundisturbed : p.Undisturbed config path deeds) :
    (p.departures config deeds).map Departure.token = lastTokens session deeds := by
  induction deeds generalizing p session with
  | nil => rfl
  | cons deed rest ih =>
    obtain ⟨i, op | request⟩ := deed
    · obtain ⟨hsucceeds, hrest⟩ := hundisturbed
      exact ih (h.step i hsucceeds) hrest
    · obtain ⟨hfile, hrest⟩ := hundisturbed
      rw [departures, List.map_cons, lastTokens, ih (h.call hfile) hrest, h.token i]

/-! ### Stores in memory -/

section Memory

variable {i : ι} (hmemory : (p.stores i).file = none)

include hmemory

omit [DecidableEq ι] in
theorem synced_of_memory : (p.stores i).synced p.host = p.stores i := by
  have hcurrent : (p.stores i).current p.host = (p.stores i).held := by
    rw [SessionStore.current, hmemory]
  rw [SessionStore.synced, if_pos hcurrent]

omit [DecidableEq ι] in
theorem token_of_memory : p.token i = (p.stores i).held.token := by
  rw [token, SessionStore.current, hmemory]

theorem stores_step_of_memory {op : SessionOperation} (hop : op ≠ .restart) :
    ((p.step i op).2.stores i).file = none ∧
      ((p.step i op).2.stores i).held = op.written?.getD (p.stores i).held := by
  have hread : ∀ s, s = (p.stores i).synced p.host → s.file = none ∧ s.held = (p.stores i).held := by
    rintro s rfl
    rw [synced_of_memory hmemory]
    exact ⟨hmemory, rfl⟩
  have hpublish : ∀ s session, s = (p.stores i).publish session →
      s.file = none ∧ s.held = session := by
    rintro s session rfl
    exact ⟨hmemory, rfl⟩
  rcases op with _ | _ | _ | ⟨user, cause | token⟩ | _ | _
  · exact hread _ (p.turn_reading i Session.token).2.1
  · exact hread _ (p.turn_reading i Session.loggedIn).2.1
  · exact hread _ (p.turn_reading i id).2.1
  · have hstore : (p.step i (.login user (.error cause))).2.stores i = p.stores i :=
      stores_turn_self p i _
    rw [hstore]
    exact ⟨hmemory, rfl⟩
  · refine hpublish _ (.withToken token) ((stores_turn_self p i _).trans ?_)
    rw [SessionOperation.perform, SessionStore.login, hmemory]
    rfl
  · refine hpublish _ .loggedOut ((stores_turn_self p i _).trans ?_)
    rw [SessionOperation.perform, SessionStore.logout, hmemory]
    rfl
  · exact absurd rfl hop

theorem stores_call_of_memory (config : ι → Config) (request : Request) :
    (perform config p (i, .call request)).stores i = p.stores i := by
  show (p.turn i (Http.Client.call (config i) request)).2.stores i = p.stores i
  rw [stores_turn_self]
  rcases hpath : request.path? with _ | path
  · obtain ⟨user, password, rfl⟩ := Request.exists_of_path?_eq_none hpath
    exact store_authenticate (config i) (p.stores i) p.host user password
  · rw [store_call (config i) (p.stores i) p.host request hpath, synced_of_memory hmemory]

/-- The token of a call of a program without a session file is that of its own last login or
logout. -/
theorem tokens_of_memory {deeds : List (ι × Deed)}
    (hrestart : (i, .operation .restart) ∉ deeds) :
    ((p.departures config deeds).filter (·.program = i)).map Departure.token =
      lastTokens (p.stores i).held (deeds.filter (·.1 = i)) := by
  induction deeds generalizing p with
  | nil => rfl
  | cons deed rest ih =>
    obtain ⟨hdeed, hrest⟩ := List.ne_and_not_mem_of_not_mem_cons hrestart
    obtain ⟨j, op | request⟩ := deed
    · by_cases hj : j = i
      · subst hj
        have hop : op ≠ .restart := fun h => hdeed (h ▸ rfl)
        obtain ⟨hfile, hheld⟩ := stores_step_of_memory hmemory hop
        rw [List.filter_cons_of_pos (by simp), lastTokens, ← hheld]
        exact ih hfile hrest
      · have hstore : (perform config p (j, .operation op)).stores i = p.stores i :=
          stores_turn_of_ne p (Ne.symm hj) _
        rw [List.filter_cons_of_neg (by simp [hj]), ← hstore]
        exact ih (hstore ▸ hmemory) hrest
    · by_cases hj : j = i
      · subst hj
        have hstore := stores_call_of_memory hmemory config request
        rw [departures, List.filter_cons_of_pos (by simp), List.filter_cons_of_pos (by simp),
          List.map_cons, lastTokens, token_of_memory hmemory, ← hstore]
        exact congrArg _ (ih (hstore ▸ hmemory) hrest)
      · have hstore : (perform config p (j, .call request)).stores i = p.stores i :=
          stores_turn_of_ne p (Ne.symm hj) _
        rw [departures, List.filter_cons_of_neg (by simp [hj]),
          List.filter_cons_of_neg (by simp [hj]), ← hstore]
        exact ih (hstore ▸ hmemory) hrest

end Memory

/-! ## Whole runs -/

/-- Every call carries the token that is in force when it is made. For programs that share a session
file this is the token of the last login or logout of any of them, without a file that of its own
last one. Runs with the same calls send the same requests but for that header, whatever the tokens
are. -/
theorem token_in_header_alone (config : ι → Config) (p : Programs ι) (deeds : List (ι × Deed)) :
    (∀ d ∈ p.departures config deeds, d.IsProper config) ∧
      (∀ path session, p.Shares path session → p.Undisturbed config path deeds →
        (p.departures config deeds).map Departure.token = lastTokens session deeds) ∧
      (∀ i, (p.stores i).file = none → (i, .operation .restart) ∉ deeds →
        ((p.departures config deeds).filter (·.program = i)).map Departure.token =
          lastTokens (p.stores i).held (deeds.filter (·.1 = i))) ∧
      ∀ (q : Programs ι) deeds', calls deeds' = calls deeds →
        List.Forall₂ Departure.Alike (p.departures config deeds) (q.departures config deeds') := by
  have hdepartures := departures_isOf config p deeds
  refine ⟨isProper_of_mem config hdepartures, fun _ _ hshares => hshares.tokens, ?_, ?_⟩
  · exact fun i hmemory => tokens_of_memory hmemory
  · intro q deeds' hcalls
    have hdepartures' := departures_isOf config q deeds'
    rw [hcalls] at hdepartures'
    exact forall₂_alike config hdepartures hdepartures'

/-- One program logs in, and another one makes a call. -/
def loginThenCall : List (Bool × Deed) :=
  [(true, .operation (.login "ann" (.ok "t1"))), (false, .call (.get "api/incidents"))]

/-- The call has the token of the other program in its header. -/
theorem token_of_shared_login :
    ∃ d m, fresh.departures (fun _ => .standard) loginThenCall = [d] ∧ d.program = false ∧
      d.token = some "t1" ∧ d.messages = [m] ∧ m.tokens = ["t1"] := by
  have hshares : fresh.Shares "session.json" .loggedOut := ⟨fun _ => rfl, by decide +kernel⟩
  have hsaved : (fresh.host.saveFile "session.json" (Session.withToken "t1").fileText).1 = true := by
    decide +kernel
  have hundisturbed :
      fresh.Undisturbed (fun _ => .standard) "session.json" loginThenCall :=
    ⟨step_login_of_saved (hshares.file true) "ann" hsaved, by decide +kernel, trivial⟩
  obtain ⟨d, hdeparted, hprogram, hrequest⟩ :
      ∃ d, fresh.departures (fun _ => .standard) loginThenCall = [d] ∧ d.program = false ∧
        d.request = .get "api/incidents" :=
    ⟨_, rfl, rfl, rfl⟩
  obtain ⟨hproper, htokens, -⟩ := token_in_header_alone (fun _ => .standard) fresh loginThenCall
  have htoken := htokens _ _ hshares hundisturbed
  rw [hdeparted] at hproper htoken
  obtain htoken : d.token = some "t1" := List.singleton_inj.1 htoken
  obtain ⟨-, hcarries, hgoesOut⟩ := hproper d List.mem_cons_self
  have hsendable : IsSendable d.token := by
    rw [htoken]
    rintro t ⟨⟩
    decide
  obtain ⟨bare, hbare⟩ : ∃ m, prepared .standard none d.request = .ok m := by
    rw [hrequest, ← isOk_iff]
    decide +kernel
  obtain ⟨m, hmessages, -⟩ := hgoesOut hsendable bare hbare
  have htokens : m.tokens = (carried d.request d.token).toList :=
    hcarries m (hmessages ▸ List.mem_cons_self)
  rw [hrequest, htoken] at htokens
  exact ⟨d, m, hdeparted, hprogram, htoken, hmessages, htokens⟩

end AlertConsole.Programs
