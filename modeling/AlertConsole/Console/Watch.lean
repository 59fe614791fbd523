import AlertConsole.Console.Run

/-!
# Watching the incidents

A `Watch` shows every list that its feed publishes. A session that is published while it runs
restarts the feed, and the request of a restart may publish another one. So the loop deals with what
is pending turn by turn, and goes on to the next fetch of the schedule when nothing is.
-/

namespace AlertConsole.Console

structure Watch where
  feed : Feed
  /-- The publications of lists and of sessions that have been dealt with. -/
  listsSeen : Nat
  sessionsSeen : Nat

namespace Watch

variable (config : Config) (format : Format)

/-- Starts the feed. -/
def start : Console Watch := do
  let store ← get
  let feed ← withFeed config (Feed.idle config.pollInterval).start
  pure ⟨feed, 0, store.publications⟩

/-- Shows the latest list, if it has not been shown. -/
def showList (w : Watch) : Console Watch := do
  if w.feed.publications = w.listsSeen then pure w
  else
    showIncidents config format w.feed.incidents
    report (.listShown w.feed.incidents.length)
    pure { w with listsSeen := w.feed.publications }

/-- Restarts the feed, if a session was published. -/
def followSession (w : Watch) : Console Watch := do
  let store ← get
  if store.publications = w.sessionsSeen then pure w
  else
    report .sessionChanged
    let feed ← withFeed config do (← w.feed.stop).start
    pure { w with feed, sessionsSeen := store.publications }

/-- Deals with what was published. -/
def settle (w : Watch) : Console Watch := do
  (← w.followSession config).showList config format

/-- Waits for the next tick of the schedule, and fetches. -/
def tick (w : Watch) : Console Watch := do
  match w.feed.nextTick? with
  | none => pure w
  | some time =>
    let feed ← withFeed config (w.feed.advance time)
    pure { w with feed }

/-! ## The loop -/

/-- What the loop does next. -/
inductive Turn where
  | settle
  | tick

def perform (w : Watch) : Turn → Console Watch
  | .settle => w.settle config format
  | .tick => w.tick config

/-- Something was published that has not been dealt with. -/
def isPending (w : Watch) (store : SessionStore) : Bool :=
  w.feed.publications != w.listsSeen || store.publications != w.sessionsSeen

/-- The loop waits for a tick only when nothing is pending. -/
def nextTurn (w : Watch) (store : SessionStore) : Turn :=
  if w.isPending store then .settle else .tick

def turn (w : Watch) : Console Watch := do
  w.perform config format (w.nextTurn (← get))

/-- Ends after an interruption. -/
def interrupt (w : Watch) : Console Unit := do
  report .interrupted
  let _ ← withFeed config w.feed.stop

end Watch

end AlertConsole.Console
