import AlertConsole.Proofs.Session.Store
import Mathlib.Logic.Function.Basic

/-!
# Programs that share a session file

Several programs keep their session in one file, and act on it in any order. Every read of every one
of them gives the session of the login or logout that completed last (`agrees_after`). Subscribers of
a store hear of its own logins and logouts, and of a read that gives something new; a login is not
published again by reading it back.
-/

namespace AlertConsole

/-! ## Operations -/

/-- What a program does with its store. -/
inductive SessionOperation where
  | currentToken
  | isLoggedIn
  | session
  /-- A login, once the server has answered. -/
  | login (user : String) (answer : Except ApiError String)
  | logout
  /-- The store is opened anew. -/
  | restart

namespace SessionOperation

abbrev Result : SessionOperation → Type
  | currentToken => Option String
  | isLoggedIn => Bool
  | session => Session
  | login _ _ => Except SessionError Unit
  | logout => Except SessionError Unit
  | restart => Unit

def perform : (op : SessionOperation) → SessionStore → Dialogue Host (op.Result × SessionStore)
  | currentToken, s => s.currentToken
  | isLoggedIn, s => s.isLoggedIn
  | session, s => s.session
  | login user answer, s => s.login user answer
  | logout, s => s.logout
  | restart, s => do
    let s ← s.file.elim (pure SessionStore.inMemory) SessionStore.opened
    pure ((), s)

inductive IsRead : SessionOperation → Prop where
  | currentToken : IsRead currentToken
  | isLoggedIn : IsRead isLoggedIn
  | session : IsRead session

/-- The session that the operation puts in force if it succeeds. -/
def written? : SessionOperation → Option Session
  | login _ (.ok token) => some (.withToken token)
  | logout => some .loggedOut
  | _ => none

def Succeeds : (op : SessionOperation) → op.Result → Prop
  | login _ _, r => r = .ok ()
  | logout, r => r = .ok ()
  | _, _ => True

end SessionOperation

open SessionStore (sessionOf?)

/-! ## Programs -/

/-- Programs on one host, each with a store of its own. -/
structure Programs (ι : Type) where
  stores : ι → SessionStore
  host : MemoryHost

namespace Programs

variable {ι α : Type} [DecidableEq ι]

/-- Lets one program do something with its store. -/
def turn (p : Programs ι) (i : ι) (d : SessionStore → Dialogue Host (α × SessionStore)) :
    α × Programs ι :=
  let r := p.host.run (d (p.stores i))
  (r.1.1, ⟨Function.update p.stores i r.1.2, r.2⟩)

def step (p : Programs ι) (i : ι) (op : SessionOperation) : op.Result × Programs ι :=
  p.turn i op.perform

def after (p : Programs ι) (events : List (ι × SessionOperation)) : Programs ι :=
  events.foldl (fun p e => (p.step e.1 e.2).2) p

/-- Every operation succeeds when its turn comes. -/
def AllSucceed (p : Programs ι) : List (ι × SessionOperation) → Prop
  | [] => True
  | e :: rest => e.2.Succeeds (p.step e.1 e.2).1 ∧ (p.step e.1 e.2).2.AllSucceed rest

/-- The session of the last login or logout, or the first session if there was none. -/
def latest (initial : Session) (events : List (ι × SessionOperation)) : Session :=
  events.foldl (fun session e => e.2.written?.getD session) initial

/-! ## What a turn changes -/

section Turn

variable (p : Programs ι) (i : ι)

theorem turn_fst (d : SessionStore → Dialogue Host (α × SessionStore)) :
    (p.turn i d).1 = (p.host.run (d (p.stores i))).1.1 := rfl

theorem host_turn (d : SessionStore → Dialogue Host (α × SessionStore)) :
    (p.turn i d).2.host = (p.host.run (d (p.stores i))).2 := rfl

theorem stores_turn_self (d : SessionStore → Dialogue Host (α × SessionStore)) :
    (p.turn i d).2.stores i = (p.host.run (d (p.stores i))).1.2 :=
  Function.update_self _ _ _

theorem stores_turn_of_ne {i j : ι} (hne : j ≠ i)
    (d : SessionStore → Dialogue Host (α × SessionStore)) :
    (p.turn i d).2.stores j = p.stores j :=
  Function.update_of_ne hne _ _

theorem turn_reading (view : Session → α) :
    let r := p.turn i fun s => do
      let s ← s.sync
      pure (view s.held, s)
    r.1 = view ((p.stores i).current p.host) ∧
      r.2.stores i = (p.stores i).synced p.host ∧
      ∀ path, r.2.host.readFile path = p.host.readFile path := by
  obtain ⟨hresult, hfiles⟩ := (p.stores i).run_reading p.host view
  refine ⟨?_, ?_, hfiles⟩
  · rw [turn_fst, hresult]
  · rw [stores_turn_self, hresult]

end Turn

/-! ## One file -/

/-- All programs keep their session in the file at `path`, which holds `session`. -/
structure Shares (p : Programs ι) (path : String) (session : Session) : Prop where
  file : ∀ i, (p.stores i).file = some path
  stored : sessionOf? (p.host.readFile path) = some session

variable {p : Programs ι} {path : String} {session : Session} {op : SessionOperation}

theorem eq_of_fields {s : SessionStore} {path : String} {session : Session}
    (hfile : s.file = some path) (hheld : s.held = session) :
    s = ⟨some path, session, s.publications⟩ := by
  rcases s with ⟨file, held, publications⟩
  cases hfile
  cases hheld
  rfl

omit [DecidableEq ι] in
theorem Shares.current (h : p.Shares path session) (i : ι) :
    (p.stores i).current p.host = session := by
  rw [SessionStore.current, h.file i]
  show (sessionOf? (p.host.readFile path)).getD _ = session
  rw [h.stored, Option.getD_some]

omit [DecidableEq ι] in
theorem Shares.synced (h : p.Shares path session) (i : ι) :
    (p.stores i).synced p.host = ⟨some path, session,
      (p.stores i).publications + if session = (p.stores i).held then 0 else 1⟩ := by
  have hfile := (p.stores i).file_synced p.host
  have hheld := (p.stores i).held_synced p.host
  have hpublications := (p.stores i).publications_synced p.host
  rw [h.current i] at hheld hpublications
  rw [h.file i] at hfile
  rw [eq_of_fields hfile hheld, hpublications]

/-- The programs share the file after a turn that leaves it with a session. -/
theorem Shares.turn (h : p.Shares path session) {i : ι} {session' : Session}
    {d : SessionStore → Dialogue Host (α × SessionStore)}
    (hfile : ((p.turn i d).2.stores i).file = some path)
    (hstored : sessionOf? ((p.turn i d).2.host.readFile path) = some session') :
    (p.turn i d).2.Shares path session' := by
  refine ⟨fun j => ?_, hstored⟩
  by_cases hj : j = i
  · rw [hj, hfile]
  · rw [stores_turn_of_ne p hj, h.file j]

/-! ## Steps -/

theorem Shares.step_read (h : p.Shares path session) (i : ι) (hread : op.IsRead) :
    (p.step i op).2.stores i = ⟨some path, session,
        (p.stores i).publications + if session = (p.stores i).held then 0 else 1⟩ ∧
      (p.step i op).2.Shares path session := by
  have hreading : (p.step i op).2.stores i = (p.stores i).synced p.host ∧
      ∀ path, (p.step i op).2.host.readFile path = p.host.readFile path := by
    cases hread with
    | currentToken => exact (p.turn_reading i Session.token).2
    | isLoggedIn => exact (p.turn_reading i Session.loggedIn).2
    | session => exact (p.turn_reading i id).2
  obtain ⟨hstore, hfiles⟩ := hreading
  rw [h.synced i] at hstore
  refine ⟨hstore, h.turn (congrArg SessionStore.file hstore) ?_⟩
  exact (congrArg sessionOf? (hfiles path)).trans h.stored

theorem Shares.step_write (h : p.Shares path session) (i : ι) {session' : Session}
    (hwritten : op.written? = some session') (hsucceeds : op.Succeeds (p.step i op).1) :
    (p.step i op).2.stores i = ⟨some path, session', (p.stores i).publications + 1⟩ ∧
      (p.step i op).2.Shares path session' := by
  have hwrite : (p.step i op).2.stores i = (p.stores i).publish session' ∧
      sessionOf? ((p.step i op).2.host.readFile path) = some session' := by
    rcases op with _ | _ | _ | ⟨user, cause | token⟩ | _ | _
    · cases hwritten
    · cases hwritten
    · cases hwritten
    · cases hwritten
    · cases hwritten
      obtain ⟨hstore, hstored⟩ := SessionStore.run_login (h.file i) user token hsucceeds
      exact ⟨(stores_turn_self p i _).trans hstore, hstored⟩
    · cases hwritten
      obtain ⟨hstore, hstored⟩ := SessionStore.run_logout (h.file i) hsucceeds
      exact ⟨(stores_turn_self p i _).trans hstore, hstored⟩
    · cases hwritten
  obtain ⟨hstore, hstored⟩ := hwrite
  have hpublished : (p.stores i).publish session' =
      ⟨some path, session', (p.stores i).publications + 1⟩ := by
    rw [SessionStore.publish, h.file i]
  rw [hpublished] at hstore
  exact ⟨hstore, h.turn (congrArg SessionStore.file hstore) hstored⟩

theorem step_login_of_saved {i : ι} (hfile : (p.stores i).file = some path) (user : String)
    {token : String}
    (hsaved : (p.host.saveFile path (Session.withToken token).fileText).1 = true) :
    (p.step i (.login user (.ok token))).1 = .ok () :=
  SessionStore.run_login_of_saved hfile user token hsaved

theorem Shares.step_restart (h : p.Shares path session) (i : ι) :
    (p.step i .restart).2.stores i = ⟨some path, session, 0⟩ ∧
      (p.step i .restart).2.Shares path session := by
  have hrun : p.host.run (SessionOperation.restart.perform (p.stores i)) =
      (((), ⟨some path, session, 0⟩), p.host) := by
    show p.host.run ((p.stores i).file.elim (pure SessionStore.inMemory) SessionStore.opened >>=
      fun s => pure ((), s)) = _
    rw [h.file i, Option.elim_some, MemoryHost.run_bind, SessionStore.run_opened h.stored]
    rfl
  have hstore : (p.step i .restart).2.stores i = ⟨some path, session, 0⟩ := by
    rw [step, stores_turn_self, hrun]
  refine ⟨hstore, h.turn (congrArg SessionStore.file hstore) ?_⟩
  rw [host_turn, hrun]
  exact h.stored

/-- The file holds what the last operation wrote, or what it held. -/
theorem Shares.step (h : p.Shares path session) (i : ι) (hsucceeds : op.Succeeds (p.step i op).1) :
    (p.step i op).2.Shares path (op.written?.getD session) := by
  rcases op with _ | _ | _ | ⟨user, cause | token⟩ | _ | _
  · exact (h.step_read i .currentToken).2
  · exact (h.step_read i .isLoggedIn).2
  · exact (h.step_read i .session).2
  · cases hsucceeds
  · exact (h.step_write i rfl hsucceeds).2
  · exact (h.step_write i rfl hsucceeds).2
  · exact (h.step_restart i).2

/-! ## Runs -/

theorem Shares.after {events : List (ι × SessionOperation)} (h : p.Shares path session)
    (hsucceed : p.AllSucceed events) : (p.after events).Shares path (latest session events) := by
  induction events generalizing p session with
  | nil => exact h
  | cons e events ih =>
    obtain ⟨hsucceeds, hrest⟩ := hsucceed
    exact ih (h.step e.1 hsucceeds) hrest

/-- A store that holds the session of the file is left alone by all reads. -/
theorem Shares.stores_after_reads (h : p.Shares path session) {i : ι}
    (hheld : (p.stores i).held = session) {reads : List (ι × SessionOperation)}
    (hreads : ∀ e ∈ reads, e.2.IsRead) : (p.after reads).stores i = p.stores i := by
  induction reads generalizing p with
  | nil => rfl
  | cons e reads ih =>
    obtain ⟨j, op⟩ := e
    obtain ⟨hread, hrest⟩ := List.forall_mem_cons.1 hreads
    obtain ⟨hstore, hshares⟩ := h.step_read j hread
    have hsame : (p.step j op).2.stores i = p.stores i := by
      by_cases hj : i = j
      · subst hj
        rw [hstore, if_pos hheld.symm]
        exact (eq_of_fields (h.file i) hheld).symm
      · exact stores_turn_of_ne p hj _
    rw [← hsame]
    exact ih hshares (hsame ▸ hheld) hrest

/-! ## Agreement -/

/-- What all programs see of one session, and how their subscribers hear of it. -/
structure Agrees (p : Programs ι) (path : String) (session : Session) : Prop where
  token : ∀ i, (p.step i .currentToken).1 = session.token
  loggedIn : ∀ i, (p.step i .isLoggedIn).1 = session.loggedIn
  whole : ∀ i, (p.step i .session).1 = session
  /-- A read is published if it gives something new. -/
  reading : ∀ i op, op.IsRead → (p.step i op).2.stores i = ⟨some path, session,
    (p.stores i).publications + if session = (p.stores i).held then 0 else 1⟩
  /-- A login or logout is published, and not once more by reading it back. -/
  writing : ∀ i op session', op.written? = some session' → op.Succeeds (p.step i op).1 →
    (p.step i op).2.stores i = ⟨some path, session', (p.stores i).publications + 1⟩ ∧
      ∀ reads, (∀ e ∈ reads, e.2.IsRead) →
        ((p.step i op).2.after reads).stores i = (p.step i op).2.stores i
  /-- What one program does is not published by the store of another. -/
  apart : ∀ i j op, j ≠ i → (p.step i op).2.stores j = p.stores j
  /-- A store that is opened starts with the session, and nothing is published. -/
  opening : ∀ i, (p.step i .restart).2.stores i = ⟨some path, session, 0⟩

theorem Shares.agrees (h : p.Shares path session) : p.Agrees path session where
  token i := (p.turn_reading i Session.token).1.trans (congrArg Session.token (h.current i))
  loggedIn i := (p.turn_reading i Session.loggedIn).1.trans (congrArg Session.loggedIn (h.current i))
  whole i := (p.turn_reading i id).1.trans (h.current i)
  reading i _ hread := (h.step_read i hread).1
  writing i op session' hwritten hsucceeds := by
    obtain ⟨hstore, hshares⟩ := h.step_write i hwritten hsucceeds
    have hheld : ((p.step i op).2.stores i).held = session' := congrArg SessionStore.held hstore
    exact ⟨hstore, fun reads hreads => hshares.stores_after_reads hheld hreads⟩
  apart _ _ _ hne := stores_turn_of_ne p hne _
  opening i := (h.step_restart i).1

theorem agrees_after {initial : Session} {events : List (ι × SessionOperation)}
    (hfile : ∀ i, (p.stores i).file = some path)
    (hinitial : sessionOf? (p.host.readFile path) = some initial)
    (hsucceed : p.AllSucceed events) : (p.after events).Agrees path (latest initial events) :=
  (Shares.after ⟨hfile, hinitial⟩ hsucceed).agrees

/-- Two programs on a machine without files. -/
def fresh : Programs Bool where
  stores _ := ⟨some "session.json", .loggedOut, 0⟩
  host :=
    { disk := .empty
      directory := []
      server := ("localhost", 8081)
      routes := .empty
      otherwise := .plain
      received := []
      input := []
      output := ""
      log := (none, "") }

/-- A login with a token that is written with escapes, which the other program sees. -/
theorem agrees_after_login :
    fresh.AllSucceed [(true, .login "ann" (.ok "\"é\n")), (false, .currentToken)] ∧
      (fresh.after [(true, .login "ann" (.ok "\"é\n")), (false, .currentToken)]).Agrees
        "session.json" (.withToken "\"é\n") := by
  have hfile : ∀ i, (fresh.stores i).file = some "session.json" := fun _ => rfl
  have hinitial : sessionOf? (fresh.host.readFile "session.json") = some .loggedOut := by
    decide +kernel
  have hsaved :
      (fresh.host.saveFile "session.json" (Session.withToken "\"é\n").fileText).1 = true := by
    decide +kernel
  have hlogin := step_login_of_saved (hfile true) "ann" hsaved
  have hsucceed : fresh.AllSucceed [(true, .login "ann" (.ok "\"é\n")), (false, .currentToken)] :=
    ⟨hlogin, trivial, trivial⟩
  exact ⟨hsucceed, agrees_after hfile hinitial hsucceed⟩

end Programs

end AlertConsole
