import AlertConsole.Proofs.Disk.Failure
import AlertConsole.Proofs.Http.Replies
import AlertConsole.Proofs.Session.Reading

/-!
# Logins and logouts that fail

On a machine that `KeepsFile`, a login or logout is `AllOrNothing`: after an error the store is as it
was and the file has the content that it had, after a success both say the new session. A login that
the server refuses asks the machine for nothing. A host in memory keeps every file
(`MemoryHost.keepsFile`).
-/

namespace AlertConsole

open SessionStore (sessionOf?)

variable {σ : Type}

/-! ## Machines that keep a file -/

/-- Whoever answers the questions of a dialogue, from a state. -/
abbrev Machine (σ : Type) : Type :=
  (q : Host.Question) → StateM σ (Host.Answer q)

namespace Machine

/-- What a read of the file would give. -/
def content (machine : Machine σ) (path : String) (m : σ) : FileContent :=
  (machine (.read path) m).1

/-- What is saved is read, and what is removed is missing. A change that fails leaves the content of
the file alone, and so does a report. -/
structure KeepsFile (machine : Machine σ) (path : String) : Prop where
  saved : ∀ text m, (machine (.save path text) m).1 = true →
    machine.content path (machine (.save path text) m).2 = .bytes (Text.utf8 text)
  notSaved : ∀ text m, (machine (.save path text) m).1 = false →
    (machine.content path (machine (.save path text) m).2).bytes? = (machine.content path m).bytes?
  removed : ∀ m, (machine (.remove path) m).1 = true →
    machine.content path (machine (.remove path) m).2 = .missing
  notRemoved : ∀ m, (machine (.remove path) m).1 = false →
    (machine.content path (machine (.remove path) m).2).bytes? = (machine.content path m).bytes?
  reported : ∀ event m,
    machine.content path (machine (.report event) m).2 = machine.content path m

end Machine

theorem MemoryHost.content_answer (h : MemoryHost) (path : String) :
    Machine.content MemoryHost.answer path h = h.readFile path := rfl

theorem MemoryHost.keepsFile (path : String) : Machine.KeepsFile MemoryHost.answer path where
  saved _ _ := readFile_of_save
  notSaved _ _ := Disk.bytes?_read_of_not_saved
  removed _ := readFile_of_remove
  notRemoved _ hremoved := congrArg FileContent.bytes? (Disk.read_of_not_removed hremoved)
  reported event h := readFile_report h event path

/-! ## All or nothing -/

namespace SessionStore

/-- What a change of the session comes to. -/
abbrev Settlement (σ : Type) : Type :=
  (Except SessionError Unit × SessionStore) × σ

/-- A change from a store and a machine to a session, for which the file is to have this content. -/
structure AllOrNothing (machine : Machine σ) (s : SessionStore) (m : σ) (session : Session)
    (stored : FileContent) (r : Settlement σ) : Prop where
  nothing : r.1.1 ≠ .ok () → r.1.2 = s ∧
    ∀ path ∈ s.file, (machine.content path r.2).bytes? = (machine.content path m).bytes?
  all : r.1.1 = .ok () → r.1.2 = s.publish session ∧
    ∀ path ∈ s.file, machine.content path r.2 = stored ∧ sessionOf? stored = some session

variable {machine : Machine σ} {s : SessionStore} {m : σ} {session : Session} {event : Event}
  {stored : FileContent}

theorem allOrNothing_of_changing {changing : Dialogue Host Bool}
    (hkeeps : ∀ path ∈ s.file, machine.KeepsFile path) (hstored : sessionOf? stored = some session)
    (hchanged : (changing.interpret machine m).1 = true → ∀ path ∈ s.file,
      machine.content path (changing.interpret machine m).2 = stored)
    (hfailed : (changing.interpret machine m).1 = false → ∀ path ∈ s.file,
      (machine.content path (changing.interpret machine m).2).bytes? =
        (machine.content path m).bytes?) :
    AllOrNothing machine s m session stored
      ((changing >>= s.settling session event).interpret machine m) := by
  have hbind : (changing >>= s.settling session event).interpret machine m =
      (s.settling session event (changing.interpret machine m).1).interpret machine
        (changing.interpret machine m).2 := by
    rw [Dialogue.interpret_bind]
    rfl
  rw [hbind]
  rcases hresult : changing.interpret machine m with ⟨_ | _, m'⟩
  all_goals rw [hresult] at hchanged hfailed
  · exact ⟨fun _ => ⟨rfl, hfailed rfl⟩, nofun⟩
  · refine ⟨fun herror => absurd rfl herror, fun _ => ⟨rfl, fun path hpath => ⟨?_, hstored⟩⟩⟩
    exact ((hkeeps path hpath).reported event m').trans (hchanged rfl path hpath)

theorem allOrNothing_login (hkeeps : ∀ path ∈ s.file, machine.KeepsFile path)
    (user token : String) :
    AllOrNothing machine s m (.withToken token)
      (.bytes (Text.utf8 (Session.withToken token).fileText))
      ((s.login user (.ok token)).interpret machine m) := by
  rw [login_ok_eq]
  apply allOrNothing_of_changing hkeeps (sessionOf?_fileText token)
  · intro hsaved path hpath
    rw [Option.mem_def] at hpath
    rw [hpath] at hsaved ⊢
    exact (hkeeps path hpath).saved _ m hsaved
  · intro hfailed path hpath
    rw [Option.mem_def] at hpath
    rw [hpath] at hfailed ⊢
    exact (hkeeps path hpath).notSaved _ m hfailed

theorem allOrNothing_logout (hkeeps : ∀ path ∈ s.file, machine.KeepsFile path) :
    AllOrNothing machine s m .loggedOut .missing (s.logout.interpret machine m) := by
  rw [logout_eq]
  apply allOrNothing_of_changing hkeeps rfl
  · intro hremoved path hpath
    rw [Option.mem_def] at hpath
    rw [hpath] at hremoved ⊢
    exact (hkeeps path hpath).removed m hremoved
  · intro hfailed path hpath
    rw [Option.mem_def] at hpath
    rw [hpath] at hfailed ⊢
    exact (hkeeps path hpath).notRemoved m hfailed

/-! ## Logins that the server refuses -/

theorem runs_login_api {user : String} {answer : Except ApiError String} {cause : ApiError}
    {log : List (Exchange Host)} {s' : SessionStore}
    (h : (s.login user answer).Runs log (.error (.api cause), s')) : log = [] ∧ s' = s := by
  cases answer with
  | error other =>
    obtain ⟨rfl, hresult⟩ := Dialogue.runs_done_iff.1 h
    exact ⟨rfl, congrArg Prod.snd hresult⟩
  | ok token =>
    rw [login_ok_eq] at h
    obtain ⟨changed, changing, rest, rfl, -, hrest⟩ := Dialogue.runs_bind_iff.1 h
    cases changed with
    | false => cases (Dialogue.runs_done_iff.1 hrest).2
    | true =>
      obtain ⟨-, reporting, done, -, -, hdone⟩ := Dialogue.runs_bind_iff.1 hrest
      cases (Dialogue.runs_done_iff.1 hdone).2

theorem runs_login_refused {config : Config} {user password : String} {cause : ApiError}
    {log : List (Exchange Host)} {s' : SessionStore}
    (h : (Http.Client.login config user password s).Runs log (.error (.api cause), s')) :
    s' = s ∧ ∀ e ∈ log, Http.Client.IsExchange e.1 := by
  obtain ⟨⟨answer, asked⟩, calling, rest, rfl, hcall, hlogin⟩ := Dialogue.runs_bind_iff.1 h
  -- The request for a token must not be computed here.
  rw [Http.Client.call] at hcall
  generalize Http.Client.authMessage config user password = request at hcall
  obtain ⟨body, sending, done, rfl, hsend, hdone⟩ := Dialogue.runs_bind_iff.1 hcall
  obtain ⟨rfl, hasked⟩ := Dialogue.runs_done_iff.1 hdone
  obtain ⟨-, rfl⟩ := Prod.mk.inj hasked
  obtain ⟨rfl, rfl⟩ := runs_login_api hlogin
  refine ⟨rfl, fun e he => ?_⟩
  rw [List.append_nil, List.append_nil] at he
  have hnever : (Http.Client.send request).Never fun q => ¬Http.Client.IsExchange q :=
    Http.Client.never_send (fun m => not_not_intro trivial) request
  exact not_not.1 (hsend.never hnever e he)

/-! ## Logins and logouts -/

/-- Whatever the store, the answer of the server and the failures of a machine that keeps the file,
a login or logout changes both the held session and the file, and publishes, or does neither. One
that the server refuses has no more than its exchange. -/
theorem login_logout_all_or_nothing (machine : Machine σ) (s : SessionStore) (m : σ)
    (hkeeps : ∀ path ∈ s.file, machine.KeepsFile path) :
    (∀ user cause,
      (s.login user (.error cause)).interpret machine m = ((.error (.api cause), s), m)) ∧
    (∀ config user password cause log s',
      (Http.Client.login config user password s).Runs log (.error (.api cause), s') →
        s' = s ∧ ∀ e ∈ log, Http.Client.IsExchange e.1) ∧
    (∀ user token, AllOrNothing machine s m (.withToken token)
      (.bytes (Text.utf8 (Session.withToken token).fileText))
      ((s.login user (.ok token)).interpret machine m)) ∧
    AllOrNothing machine s m .loggedOut .missing (s.logout.interpret machine m) :=
  ⟨fun _ _ => rfl, fun _ _ _ _ _ _ => runs_login_refused, allOrNothing_login hkeeps,
    allOrNothing_logout hkeeps⟩

/-- A login and a logout with a session file that would have to be in another file, and a login
after which the old session is gone. -/
theorem login_logout_all_or_nothing_on_disk :
    let h : MemoryHost := { Programs.fresh.host with disk := ⟨.ofList [("key", .file [0x21])]⟩ }
    let blocked : SessionStore := ⟨some "key/session.json", .withToken "old", 1⟩
    let free : SessionStore := ⟨some "home/session.json", .withToken "old", 1⟩
    (h.run (blocked.login "ann" (.ok "new"))).1.2 = blocked ∧ (h.run blocked.logout).1.2 = blocked ∧
      (h.run (free.login "ann" (.ok "new"))).1.2 = free.publish (.withToken "new") ∧
      sessionOf? ((h.run (free.login "ann" (.ok "new"))).2.readFile "home/session.json") =
        some (.withToken "new") := by
  intro h blocked free
  have hblocked := login_logout_all_or_nothing MemoryHost.answer blocked h
    fun path _ => MemoryHost.keepsFile path
  have hfree := login_logout_all_or_nothing MemoryHost.answer free h
    fun path _ => MemoryHost.keepsFile path
  have hnotSaved : (h.run (blocked.login "ann" (.ok "new"))).1.1 ≠ .ok () := by
    intro hok
    have hfailed : (h.run (blocked.login "ann" (.ok "new"))).1.1.isOk = false := by decide +kernel
    rw [hok] at hfailed
    cases hfailed
  have hnotRemoved : (h.run blocked.logout).1.1 ≠ .ok () := by
    intro hok
    have hfailed : (h.run blocked.logout).1.1.isOk = false := by decide +kernel
    rw [hok] at hfailed
    cases hfailed
  have hsaved : (h.run (free.login "ann" (.ok "new"))).1.1 = .ok () :=
    run_login_of_saved rfl "ann" "new" (by decide +kernel)
  obtain ⟨hpublished, hfile⟩ := (hfree.2.2.1 "ann" "new").all hsaved
  obtain ⟨hstored, hsession⟩ := hfile "home/session.json" rfl
  rw [MemoryHost.content_answer] at hstored
  rw [← hstored] at hsession
  exact ⟨((hblocked.2.2.1 "ann" "new").nothing hnotSaved).1,
    (hblocked.2.2.2.nothing hnotRemoved).1, hpublished, hsession⟩

end SessionStore

end AlertConsole
