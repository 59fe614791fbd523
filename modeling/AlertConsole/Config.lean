/-!
# Settings

What a console is started with. `Config.standard` holds the settings that are in force unless others
are given.
-/

namespace AlertConsole

structure Config where
  baseUrl : String
  /-- Milliseconds between two fetches of the incidents. -/
  pollInterval : Nat
  /-- Milliseconds after which a request is given up. -/
  requestTimeout : Nat
  /-- Where the session is kept, if it outlives the program. -/
  sessionFile : Option String
  /-- Seconds east of UTC, for times that are shown. -/
  timeOffset : Int

/-- A server on this machine, polled every five seconds. -/
def Config.standard : Config :=
  ⟨"http://localhost:8081", 5000, 10000, none, 0⟩

/-- The header that carries the session token of an authenticated request. -/
def sessionHeader : String := "BANG_SESSION"

end AlertConsole
