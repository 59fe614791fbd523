import AlertConsole.Json.Printer
import AlertConsole.Json.Record

/-!
# Sessions

A `Session` is the token that the server gave, and whether the operator is logged in. It is kept in
a file as a JSON object of these two members.
-/

namespace AlertConsole

open Json (Spelling)

structure Session where
  token : Option String
  loggedIn : Bool
  deriving DecidableEq

namespace Session

def loggedOut : Session :=
  ⟨none, false⟩

def withToken (token : String) : Session :=
  ⟨some token, true⟩

/-! ## Files -/

def toJson (s : Session) : Json :=
  .object [("token", Json.ofString? s.token), ("logged_in", .bool s.loggedIn)]

def fileText (s : Session) : String :=
  s.toJson.pretty

/-- A token, or `null`. -/
def tokenOf? : Spelling → Option (Option String)
  | .null => some none
  | v => v.text?.map some

def flagOf? : Spelling → Option Bool
  | .bool b => some b
  | _ => none

/-- A session from its fields. Nobody is logged in without a token. -/
def ofFields? : List (Option Spelling) → Option Session
  | [token?, some flag] => do
    let token ← token?.elim (some none) tokenOf?
    let loggedIn ← flagOf? flag
    pure ⟨token, loggedIn && token.isSome⟩
  | _ => none

/-- The session that a file holds. -/
def ofBytes? (bytes : List UInt8) : Option Session :=
  ((Spelling.ofBytes? bytes).bind (·.fields? ["token", "logged_in"])).bind ofFields?

end Session

end AlertConsole
