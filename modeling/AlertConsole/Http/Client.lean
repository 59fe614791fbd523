import AlertConsole.Api.Basic
import AlertConsole.Config
import AlertConsole.Http.Form
import AlertConsole.Session.Store

/-!
# Calls over HTTP

`Client.call` makes a call on the server at the address of the settings. The session's token is
read anew for every call and travels in a header; only `authenticate` goes without.
-/

namespace AlertConsole.Http.Client

open Json (Spelling)

/-! ## Requests -/

def dropSlashes (cs : List Char) : List Char :=
  cs.dropWhile (· == '/')

/-- The address of a path below a base address. Slashes where they meet count as one. -/
def address (base path : String) : String :=
  String.ofList ((dropSlashes base.toList.reverse).reverse ++ '/' :: dropSlashes path.toList)

/-- A header can have this value: no control character but the tab. -/
def isHeaderValue (value : String) : Bool :=
  value.toList.all fun c => (0x20 ≤ c.toNat && c.toNat != 0x7F) || c == '\t'

def urlOf (base path : String) : Except Fault Url :=
  (Url.ofText? (address base path)).elim (.error .badAddress) .ok

def jsonType : String := "application/json"

def sessionHeaders : Option String → Except Fault (List (String × String))
  | none => .ok []
  | some token => if isHeaderValue token then .ok [(sessionHeader, token)] else .error .badHeader

/-- A request for a path, with the token if there is one. -/
def message (config : Config) (token : Option String) (method : Method) (path : String)
    (body : Option Json) : Except Fault Message := do
  let url ← urlOf config.baseUrl path
  let session ← sessionHeaders token
  let content := (body.map fun _ => ("content-type", jsonType)).toList
  pure
    { method, url
      headers := ("accept", jsonType) :: session ++ content
      body := body.map Json.compact
      timeout := config.requestTimeout }

/-- The query of an address with more pairs at its end. -/
def extendQuery (query : Option String) (pairs : List (String × String)) : String :=
  match query with
  | none => Form.query pairs
  | some "" => Form.query pairs
  | some q => q ++ "&" ++ Form.query pairs

/-- A request for a token. -/
def authMessage (config : Config) (user password : String) : Except Fault Message := do
  let url ← urlOf config.baseUrl authPath
  let query := extendQuery url.query [("user", user), ("pass", password)]
  pure
    { method := .get
      url := { url with query }
      headers := []
      body := none
      timeout := config.requestTimeout }

/-! ## Replies -/

/-- The body of a reply that reports success. -/
def bodyOf (reply : Reply) : Except ApiError String :=
  if reply.isSuccess then .ok reply.body else .error (.ofStatus reply.status reply.body)

/-- The document in a body; a blank body is `null`. -/
def document (body : String) : Except ApiError Json :=
  if Text.isBlankText body then .ok .null
  else (Json.ofText? body).elim (.error (.malformed .unreadable)) .ok

/-- The token in a body, if it has the form of one. -/
def tokenOf? (body : String) : Option String := do
  match ← (← Spelling.ofBytes? (Text.utf8 body)).fields? ["token"] with
  | [some token] => token.text?
  | _ => none

def token (body : String) : Except ApiError String :=
  match tokenOf? body with
  | none => .error (.malformed .unreadable)
  | some t => if t = "" then .error (.malformed .emptyToken) else .ok t

/-! ## Calls -/

/-- Sends a request that could be made, and gives the body of a reply of success. -/
def send : Except Fault Message → Dialogue Host (Except ApiError String)
  | .error fault => pure (.error (.transport fault.message))
  | .ok m => do
    match ← Host.exchange m with
    | .error fault => pure (.error (.transport fault.message))
    | .ok reply => pure (bodyOf reply)

/-- Makes a call. The store comes back with what its file said when the token was read. -/
def call (config : Config) : (request : Request) → SessionStore →
    Dialogue Host (request.Outcome × SessionStore)
  | .get path, store => do
    let (token, store) ← store.currentToken
    let body ← send (message config token .get path none)
    pure (body.bind document, store)
  | .post path body, store => do
    let (token, store) ← store.currentToken
    let answer ← send (message config token .post path body)
    pure (answer.map fun _ => (), store)
  | .delete path, store => do
    let (token, store) ← store.currentToken
    let answer ← send (message config token .delete path none)
    pure (answer.map fun _ => (), store)
  | .authenticate user password, store => do
    let body ← send (authMessage config user password)
    pure (body.bind token, store)

/-- Asks the server for a token, and keeps it. -/
def login (config : Config) (user password : String) (store : SessionStore) :
    Dialogue Host (Except SessionError Unit × SessionStore) := do
  let (answer, store) ← call config (.authenticate user password) store
  store.login user answer

end AlertConsole.Http.Client
