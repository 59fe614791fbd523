import AlertConsole.Feed.Basic
import AlertConsole.Viewer.Basic
import AlertConsole.Viewer.Keys

/-!
# The live viewer

A `Dashboard` is a viewer fed by a feed. It goes in turns: a list published since the last turn is
taken over, and then a key is handled. The screen is drawn after each turn. A report that a key is
held or released would end its turn before the drawing; here it is a key without a use
(`Key.other`), and the turn goes on, since no terminal sends one unasked.
-/

namespace AlertConsole

structure Dashboard where
  viewer : Viewer
  feed : Feed
  /-- The publications that the viewer has taken over. -/
  seen : Nat

namespace Dashboard

/-- Starts the feed. -/
def start (interval : Nat) : Dialogue Feed.Link Dashboard := do
  let feed ← (Feed.idle interval).start
  pure ⟨{ Viewer.empty with polling := feed.isPolling }, feed, 0⟩

/-- Takes over a list published since the last turn. -/
def takeUpdate (d : Dashboard) : Dashboard :=
  if d.feed.publications = d.seen then d
  else { d with viewer := d.viewer.update d.feed.incidents, seen := d.feed.publications }

def say (d : Dashboard) (message : String) : Dashboard :=
  { d with viewer := { d.viewer with message := some message } }

/-! ## Keys -/

/-- Pauses or resumes polling. -/
def togglePolling (d : Dashboard) : Dialogue Feed.Link Dashboard := do
  let (feed, message) ←
    if d.feed.isPolling then do pure (← d.feed.stop, "polling paused")
    else do pure (← d.feed.start, "polling resumed")
  let d := { d with feed }.say message
  pure { d with viewer := { d.viewer with polling := feed.isPolling } }

def resolveMessage (key : String) : Except ApiError Unit → String
  | .ok () => "resolved " ++ key
  | .error cause =>
    if cause.isAuthFailure then "not authorized; run `bangctl login` first"
    else "resolve failed: " ++ cause.message

/-- Resolves the selected incident. -/
def resolveSelected (d : Dashboard) : Dialogue Feed.Link Dashboard :=
  match d.viewer.selectedEntry? with
  | none => pure d
  | some e => do
    let (outcome, feed) ← d.feed.resolve e.key
    pure ({ d with feed }.say (resolveMessage e.key outcome))

def moveSelection (d : Dashboard) (delta : Int) : Dashboard :=
  { d with viewer := d.viewer.move delta }

/-- Handles a key; there is no dashboard after one that quits. -/
def press (d : Dashboard) : Key → Dialogue Feed.Link (Option Dashboard)
  | .escape => pure none
  | .char 'q' => pure none
  | .down => pure (some (d.moveSelection 1))
  | .char 'j' => pure (some (d.moveSelection 1))
  | .up => pure (some (d.moveSelection (-1)))
  | .char 'k' => pure (some (d.moveSelection (-1)))
  | .char 'p' => some <$> d.togglePolling
  | .char 'r' => some <$> d.resolveSelected
  | _ => pure (some d)

/-- One turn up to the drawing, with the key that was typed, if any. -/
def turn (d : Dashboard) : Option Key → Dialogue Feed.Link (Option Dashboard)
  | none => pure (some d.takeUpdate)
  | some key => d.takeUpdate.press key

end Dashboard

end AlertConsole
