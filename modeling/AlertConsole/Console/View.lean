import AlertConsole.Console.Run
import AlertConsole.Viewer.Dashboard

/-!
# The dashboard on the terminal

After each turn of the dashboard the viewer learns whether somebody is logged in, whatever the key
was: also after a key without a use, which a report that a key is held or released counts as.
-/

namespace AlertConsole.Console

namespace View

variable (config : Config)

/-- Takes over whether somebody is logged in. -/
def syncSession (d : Dashboard) : Console Dashboard := do
  let loggedIn ← fun store => store.isLoggedIn
  pure { d with viewer := { d.viewer with loggedIn } }

/-- One turn of the dashboard; there is none after a key that quits. -/
def turn (d : Dashboard) (key : Option Key) : Console (Option Dashboard) := do
  match ← withFeed config (d.turn key) with
  | none => pure none
  | some d => some <$> syncSession d

/-- Lets time pass for the feed. -/
def pass (d : Dashboard) (milliseconds : Nat) : Console Dashboard := do
  let feed ← withFeed config (d.feed.advance (d.feed.now + milliseconds))
  pure { d with feed }

def finish (d : Dashboard) : Console Unit := do
  let _ ← withFeed config d.feed.stop

/-- Handles keys one by one, up to one that quits. -/
def typeKeys (d : Dashboard) : List Key → Console Unit
  | [] => finish config d
  | key :: rest => do
    match ← turn config d (some key) with
    | none => finish config d
    | some d => typeKeys d rest

/-- A whole run of the dashboard. -/
def run (keys : List Key) : Console Unit := do
  let d ← withFeed config (Dashboard.start config.pollInterval)
  match ← turn config d none with
  | none => finish config d
  | some d => typeKeys config d keys

end View

end AlertConsole.Console
