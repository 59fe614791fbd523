import AlertConsole.Api.Basic

/-!
# A server in memory

`MemoryServer` keeps documents by path and users with their tokens. A path may be broken, and then
every call on it fails. Deleting an incident removes it from the document that lists them all.
-/

namespace AlertConsole

structure User where
  name : String
  password : String
  token : String

structure MemoryServer where
  documents : KeyMap Json
  users : List User
  /-- The paths that are broken, with the failure of each. -/
  broken : KeyMap ApiError

namespace MemoryServer

def start (documents : KeyMap Json) (users : List User) : MemoryServer :=
  ⟨documents, users, .empty⟩

/-! ## Changes -/

def setDocument (s : MemoryServer) (path : String) (body : Json) : MemoryServer :=
  { s with documents := s.documents.insert path body }

/-- Lets every call on `path` fail, until it is mended. -/
def breakPath (s : MemoryServer) (path : String) (failure : ApiError) : MemoryServer :=
  { s with broken := s.broken.insert path failure }

def mendPath (s : MemoryServer) (path : String) : MemoryServer :=
  { s with broken := s.broken.erase path }

/-- The key of the incident that a path stands for. -/
def incidentKey? (path : String) : Option String :=
  if Family.incident.root.toList.isPrefixOf path.toList then
    Text.Percent.decode? (String.ofList (path.toList.drop Family.incident.root.length))
  else none

/-- Takes a member out of an object. -/
def withoutMember (key : String) : Json → Json
  | .object members => .object (members.filter (·.1 != key))
  | v => v

/-- Takes an incident out of the list of all. -/
def removeIncident (s : MemoryServer) (key : String) : MemoryServer :=
  match s.documents.get? Family.incident.listing with
  | none => s
  | some listed => s.setDocument Family.incident.listing (withoutMember key listed)

/-! ## Answers -/

/-- The path that a call is about. -/
def pathOf : Request → String
  | .get path => path
  | .post path _ => path
  | .delete path => path
  | .authenticate _ _ => authPath

def tokenOf (s : MemoryServer) (user password : String) : Except ApiError String :=
  match s.users.find? fun u => u.name == user && u.password == password with
  | some u => .ok u.token
  | none => .error (.unauthorized 401)

/-- Answers a call on a path that is not broken. -/
def serve (s : MemoryServer) : (request : Request) → request.Outcome × MemoryServer
  | .get path => (.ok ((s.documents.get? path).getD .null), s)
  | .post _ _ => (.ok (), s)
  | .delete path => (.ok (), (incidentKey? path).elim s s.removeIncident)
  | .authenticate user password => (s.tokenOf user password, s)

def answer (request : Request) (s : MemoryServer) : request.Outcome × MemoryServer :=
  match s.broken.get? (pathOf request) with
  | some failure => (.error failure, s)
  | none => s.serve request

/-- The server as the other end of a dialogue. -/
def server : Api.Server MemoryServer :=
  ⟨answer⟩

end MemoryServer

end AlertConsole
