import AlertConsole.Proofs.Host.Memory
import AlertConsole.Proofs.Session.File
import AlertConsole.Session.Store

/-!
# One operation on a session

A read gives the session that is in force, which is that of the file if the file can be read
(`run_reading`). A login or logout that succeeds leaves a file that says so (`run_login`,
`run_logout`).
-/

namespace AlertConsole.SessionStore

variable {α : Type} (s : SessionStore) (h : MemoryHost)

/-! ## The session in force -/

/-- The session that the next read gives. -/
def current : Session :=
  match s.file with
  | none => s.held
  | some path => (sessionOf? (h.readFile path)).getD s.held

/-- The store after a read. -/
def synced : SessionStore :=
  if s.current h = s.held then s else s.publish (s.current h)

theorem held_synced : (s.synced h).held = s.current h := by
  unfold synced
  split
  · next hsame => exact hsame.symm
  · rfl

theorem file_synced : (s.synced h).file = s.file := by
  unfold synced
  split <;> rfl

theorem publications_synced :
    (s.synced h).publications = s.publications + if s.current h = s.held then 0 else 1 := by
  unfold synced
  split <;> rfl

/-! ## Reading -/

theorem run_sync :
    (h.run s.sync).1 = s.synced h ∧ ∀ path, (h.run s.sync).2.readFile path = h.readFile path := by
  rcases hfile : s.file with _ | path
  · have hcurrent : s.current h = s.held := by rw [current, hfile]
    rw [sync, hfile, synced, if_pos hcurrent]
    exact ⟨rfl, fun _ => rfl⟩
  · have hcurrent : s.current h = (sessionOf? (h.readFile path)).getD s.held := by
      rw [current, hfile]
    rw [sync, hfile, synced, hcurrent]
    simp only [MemoryHost.run_bind, MemoryHost.run_read]
    rcases sessionOf? (h.readFile path) with _ | session
    · exact ⟨(if_pos rfl).symm, fun _ => rfl⟩
    · by_cases hsame : session = s.held
      · rw [Option.getD_some, if_pos hsame]
        simp only [if_pos hsame]
        exact ⟨rfl, fun _ => rfl⟩
      · rw [Option.getD_some, if_neg hsame]
        simp only [if_neg hsame, MemoryHost.run_bind]
        exact ⟨rfl, fun other => h.readFile_report _ other⟩

/-- Every read syncs, and then looks at the held session. -/
theorem run_reading (view : Session → α) :
    (h.run (do
      let s ← s.sync
      pure (view s.held, s))).1 = (view (s.current h), s.synced h) ∧
    ∀ path, (h.run (do
      let s ← s.sync
      pure (view s.held, s))).2.readFile path = h.readFile path := by
  obtain ⟨hsynced, hfiles⟩ := s.run_sync h
  rw [MemoryHost.run_bind, hsynced, ← s.held_synced h]
  exact ⟨rfl, hfiles⟩

/-! ## Login and logout -/

variable {s h} {path : String}

theorem sessionOf?_fileText (token : String) :
    sessionOf? (.bytes (Text.utf8 (Session.withToken token).fileText)) =
      some (Session.withToken token) :=
  Session.ofBytes?_fileText (Session.withToken token)

/-- What a login or logout comes to once the file was changed, or could not be. -/
def settled (s : SessionStore) (session : Session) (event : Event) :
    Bool × MemoryHost → (Except SessionError Unit × SessionStore) × MemoryHost
  | (true, h) => ((.ok (), s.publish session), h.report event)
  | (false, h) => ((.error .storage, s), h)

theorem run_login_eq (hfile : s.file = some path) (user token : String) :
    h.run (s.login user (.ok token)) =
      s.settled (.withToken token) (.loggedIn user)
        (h.saveFile path (Session.withToken token).fileText) := by
  rw [login, hfile]
  refine (MemoryHost.run_bind h (Host.save path (Session.withToken token).fileText) _).trans ?_
  rw [MemoryHost.run_save]
  rcases h.saveFile path (Session.withToken token).fileText with ⟨_ | _, h'⟩ <;> rfl

theorem run_logout_eq (hfile : s.file = some path) :
    h.run s.logout = s.settled .loggedOut .loggedOut (h.removeFile path) := by
  rw [logout, hfile]
  refine (MemoryHost.run_bind h (Host.remove path) _).trans ?_
  rw [MemoryHost.run_remove]
  rcases h.removeFile path with ⟨_ | _, h'⟩ <;> rfl

/-- A change that succeeded is published, and the file stays as it was changed. -/
theorem settled_of_ok {session : Session} {event : Event} {change : Bool × MemoryHost}
    (hdone : (s.settled session event change).1.1 = .ok ()) :
    change.1 = true ∧ (s.settled session event change).1.2 = s.publish session ∧
      ∀ path, (s.settled session event change).2.readFile path = change.2.readFile path := by
  rcases change with ⟨_ | _, h'⟩
  · cases hdone
  · exact ⟨rfl, rfl, fun other => h'.readFile_report event other⟩

theorem run_login (hfile : s.file = some path) (user token : String)
    (hdone : (h.run (s.login user (.ok token))).1.1 = .ok ()) :
    (h.run (s.login user (.ok token))).1.2 = s.publish (.withToken token) ∧
      sessionOf? ((h.run (s.login user (.ok token))).2.readFile path) =
        some (Session.withToken token) := by
  rw [run_login_eq hfile] at hdone ⊢
  obtain ⟨hsaved, hstore, hfiles⟩ := settled_of_ok hdone
  refine ⟨hstore, ?_⟩
  rw [hfiles, MemoryHost.readFile_of_save hsaved, sessionOf?_fileText]

theorem run_logout (hfile : s.file = some path) (hdone : (h.run s.logout).1.1 = .ok ()) :
    (h.run s.logout).1.2 = s.publish .loggedOut ∧
      sessionOf? ((h.run s.logout).2.readFile path) = some .loggedOut := by
  rw [run_logout_eq hfile] at hdone ⊢
  obtain ⟨hremoved, hstore, hfiles⟩ := settled_of_ok hdone
  refine ⟨hstore, ?_⟩
  rw [hfiles, MemoryHost.readFile_of_remove hremoved]
  rfl

theorem run_login_of_saved (hfile : s.file = some path) (user token : String)
    (hsaved : (h.saveFile path (Session.withToken token).fileText).1 = true) :
    (h.run (s.login user (.ok token))).1.1 = .ok () := by
  rw [run_login_eq hfile]
  rcases hchange : h.saveFile path (Session.withToken token).fileText with ⟨saved, h'⟩
  rw [hchange] at hsaved
  cases hsaved
  rfl

theorem run_opened {initial : Session} (hread : sessionOf? (h.readFile path) = some initial) :
    h.run (opened path) = (⟨some path, initial, 0⟩, h) := by
  rw [opened, MemoryHost.run_bind, MemoryHost.run_read]
  simp only [hread]
  rfl

end AlertConsole.SessionStore
