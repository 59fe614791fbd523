import AlertConsole.Http.Url

/-!
# Requests and replies

What goes over the wire, and the ways in which an exchange fails before there is a reply.
-/

namespace AlertConsole.Http

inductive Method where
  | get
  | post
  | delete
  deriving DecidableEq

def Method.name : Method → String
  | get => "GET"
  | post => "POST"
  | delete => "DELETE"

structure Message where
  method : Method
  url : Url
  headers : List (String × String)
  body : Option String
  /-- Milliseconds to wait for the reply. -/
  timeout : Nat

/-- The value of a header that is set at most once. -/
def Message.header? (m : Message) (name : String) : Option String :=
  m.headers.lookup name

structure Reply where
  status : Nat
  body : String

def Reply.isSuccess (r : Reply) : Bool :=
  200 ≤ r.status && r.status < 300

/-- A status has three digits. -/
def isStatus (status : Nat) : Bool :=
  100 ≤ status && status ≤ 999

/-- A reply with this status only announces another one. The status 101 ends the exchange. -/
def isInterim (status : Nat) : Bool :=
  100 ≤ status && status < 200 && status != 101

/-- A reply with this status has no body, whatever its fields say. -/
def isBodiless (status : Nat) : Bool :=
  status == 101 || status == 204 || status == 304

/-- Why there is no reply. -/
inductive Fault where
  | badAddress
  | badHeader
  | refused
  | closed
  | timedOut
  deriving DecidableEq

def Fault.message : Fault → String
  | badAddress => "the address cannot be used"
  | badHeader => "the session token cannot be sent in a header"
  | refused => "the connection was refused"
  | closed => "the connection was closed before there was a reply"
  | timedOut => "the reply took too long"

end AlertConsole.Http
