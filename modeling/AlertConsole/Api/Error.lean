import AlertConsole.Json.Decode

/-!
# Failures of a call

A call on the server fails in transport, because the caller is not authorized, with another status,
or with an answer that means nothing. Each cause has one message.
-/

namespace AlertConsole

/-- Why an answer means nothing. -/
inductive Malformation where
  /-- The value has the wrong shape. -/
  | undecodable (cause : DecodeError)
  /-- The text is no JSON. -/
  | unreadable
  | emptyToken
  | other (text : String)

def Malformation.message : Malformation → String
  | undecodable cause => cause.message
  | unreadable => "not a JSON text of the expected form"
  | emptyToken => "empty session token"
  | other text => text

inductive ApiError where
  | transport (detail : String)
  | unauthorized (status : Nat)
  | rejected (status : Nat) (body : String)
  | malformed (cause : Malformation)

namespace ApiError

def message : ApiError → String
  | transport detail => "request failed: " ++ detail
  | unauthorized status => s!"not authorized (status {status})"
  | rejected status body => s!"server returned {status}: " ++ body
  | malformed cause => "malformed response: " ++ cause.message

/-- Bad credentials, or a token that is missing or has expired. -/
def isAuthFailure : ApiError → Bool
  | unauthorized _ => true
  | _ => false

/-- The failure that a status other than success stands for. -/
def ofStatus (status : Nat) (body : String) : ApiError :=
  if status = 401 ∨ status = 403 then .unauthorized status else .rejected status body

end ApiError

/-- The decoded body of an answer, or the failure to decode it. -/
def Decoded.toApi {α : Type} (d : Decoded α) : Except ApiError α :=
  d.mapError fun cause => .malformed (.undecodable cause)

end AlertConsole
