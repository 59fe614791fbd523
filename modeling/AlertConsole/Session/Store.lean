import AlertConsole.Host
import AlertConsole.Session.Basic

/-!
# Keeping the session

A `SessionStore` holds the session, and keeps it in a file if it has one. The file may be written by
other programs: `sync` takes over what it says, as long as it can be read. Every change of the held
session, and every login and logout, is published.
-/

namespace AlertConsole

structure SessionStore where
  file : Option String
  held : Session
  /-- How often a session was published. -/
  publications : Nat

inductive SessionError where
  | api (cause : ApiError)
  /-- The session file could not be written or removed. -/
  | storage

namespace SessionError

def message : SessionError → String
  | api cause => cause.message
  | storage => "session storage"

end SessionError

namespace SessionStore

/-- A store without a file. -/
def inMemory : SessionStore :=
  ⟨none, .loggedOut, 0⟩

/-- What a file says: a missing one that nobody is logged in, an unreadable one nothing. -/
def sessionOf? : FileContent → Option Session
  | .missing => some .loggedOut
  | .unreadable => none
  | .bytes content => Session.ofBytes? content

/-- Starts with what the file says. -/
def opened (path : String) : Dialogue Host SessionStore := do
  match sessionOf? (← Host.read path) with
  | some held => pure ⟨some path, held, 0⟩
  | none =>
    Host.report (.sessionFileIgnored path)
    pure ⟨some path, .loggedOut, 0⟩

def publish (s : SessionStore) (session : Session) : SessionStore :=
  { s with held := session, publications := s.publications + 1 }

/-! ## Reading -/

/-- Takes over what the file says, if that is anything new. -/
def sync (s : SessionStore) : Dialogue Host SessionStore :=
  match s.file with
  | none => pure s
  | some path => do
    match sessionOf? (← Host.read path) with
    | none => pure s
    | some session =>
      if session = s.held then pure s
      else
        Host.report (.sessionFileChanged path)
        pure (s.publish session)

/-- The token for the next request. -/
def currentToken (s : SessionStore) : Dialogue Host (Option String × SessionStore) := do
  let s ← s.sync
  pure (s.held.token, s)

def isLoggedIn (s : SessionStore) : Dialogue Host (Bool × SessionStore) := do
  let s ← s.sync
  pure (s.held.loggedIn, s)

def session (s : SessionStore) : Dialogue Host (Session × SessionStore) := do
  let s ← s.sync
  pure (s.held, s)

/-! ## Login and logout -/

/-- Goes from the answer of the server to a session, which is written before it is held. -/
def login (s : SessionStore) (user : String) (answer : Except ApiError String) :
    Dialogue Host (Except SessionError Unit × SessionStore) :=
  match answer with
  | .error cause => pure (.error (.api cause), s)
  | .ok token => do
    let session := Session.withToken token
    let saved ← match s.file with
      | none => pure true
      | some path => Host.save path session.fileText
    if saved then
      Host.report (.loggedIn user)
      pure (.ok (), s.publish session)
    else pure (.error .storage, s)

/-- Removes the file before the session is given up. -/
def logout (s : SessionStore) : Dialogue Host (Except SessionError Unit × SessionStore) := do
  let removed ← match s.file with
    | none => pure true
    | some path => Host.remove path
  if removed then
    Host.report .loggedOut
    pure (.ok (), s.publish .loggedOut)
  else pure (.error .storage, s)

end SessionStore

end AlertConsole
