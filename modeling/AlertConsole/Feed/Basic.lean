import AlertConsole.Api.Basic
import AlertConsole.Incident.Listing

/-!
# The feed of incidents

A `Feed` keeps the list of incidents up to date. Time is a count of milliseconds. While there is a
`Schedule`, a fetch is issued at each of its ticks; a fetch is answered some time later, and
whenever an answer that decodes comes in, its list is published. `advance` lets time pass, and
`start`, `refresh` and `resolve` wait for a fetch of their own.
-/

namespace AlertConsole

/-! ## State -/

/-- When to fetch next, and how much later again. A schedule with the period 0 never ticks. -/
structure Schedule where
  next : Nat
  period : Nat
  deriving DecidableEq

/-- A fetch that has been issued: what it will give, and when. -/
structure Flight where
  due : Nat
  outcome : Except ApiError Json

structure Feed where
  /-- Milliseconds between two ticks. -/
  interval : Nat
  now : Nat
  schedule : Option Schedule
  /-- In the order in which they are due. -/
  inFlight : List Flight
  incidents : List Entry
  /-- How often a list was published. -/
  publications : Nat
  /-- How many fetches were answered. -/
  landed : Nat

namespace Feed

/-- A feed that has not been started. -/
def idle (interval : Nat) : Feed :=
  ⟨interval, 0, none, [], [], 0, 0⟩

def isPolling (f : Feed) : Bool :=
  f.schedule.isSome

/-! ## Questions -/

inductive Question where
  | fetch
  | delete (key : String)
  | report (event : Event)

/-- A fetch gives its outcome and the time until that comes in. -/
abbrev Answer : Question → Type
  | .fetch => Except ApiError Json × Nat
  | .delete _ => Except ApiError Unit
  | .report _ => Unit

/-- What a feed asks of its surroundings. -/
abbrev Link : Interface := ⟨Question, Answer⟩

def report (event : Event) : Dialogue Link Unit :=
  .question (I := Link) (.report event)

/-- Reports the event that a failure stands for. -/
def reportFailure {α : Type} (event : ApiError → Event) : Except ApiError α → Dialogue Link Unit
  | .error cause => report (event cause)
  | .ok _ => pure ()

/-- Answers a feed by calls on the server, each fetch with the same latency. -/
def overApi (latency : Nat) : (q : Question) → Dialogue Api (Answer q)
  | .fetch => do pure (← Api.get Family.incident.listing, latency)
  | .delete key => Api.delete (Family.incident.path key)
  | .report event => Api.report event

/-! ## Landings -/

/-- Takes in the outcome of a fetch: a list is published and counted, a failure changes nothing. -/
def land (f : Feed) (outcome : Except ApiError Json) : Except ApiError Nat × Feed :=
  match outcome.bind Listing.ofJson with
  | .ok entries =>
    (.ok entries.length,
      { f with incidents := entries, publications := f.publications + 1, landed := f.landed + 1 })
  | .error cause => (.error cause, { f with landed := f.landed + 1 })

/-- Puts a fetch behind those that are due no later. -/
def insertFlight (fl : Flight) : List Flight → List Flight
  | [] => [fl]
  | first :: rest =>
    if first.due ≤ fl.due then first :: insertFlight fl rest else fl :: first :: rest

/-- The state after the first fetch in flight has come in, and what it gave. -/
def landFirst (f : Feed) (fl : Flight) (rest : List Flight) : Except ApiError Nat × Feed :=
  { f with now := fl.due, inFlight := rest }.land fl.outcome

/-! ## Ticks -/

/-- The time of the next tick, if there is to be one. -/
def nextTick? (f : Feed) : Option Nat :=
  match f.schedule with
  | none => none
  | some s => if s.period = 0 then none else some s.next

/-- The state after a tick at its time, with the fetch that it issued. -/
def ticked (f : Feed) (reply : Except ApiError Json × Nat) : Feed :=
  match f.schedule with
  | none => f
  | some s =>
    { f with
      now := s.next
      schedule := some { s with next := s.next + s.period }
      inFlight := insertFlight ⟨s.next + reply.2, reply.1⟩ f.inFlight }

/-! ## Time -/

/-- What happens next. -/
inductive Moment where
  | landing (first : Flight) (rest : List Flight)
  | tick (time : Nat)
  /-- Nothing, up to the limit. -/
  | quiet

/-- The next tick, if it is not after `limit`. -/
def tickBy (f : Feed) (limit : Nat) : Moment :=
  match f.nextTick? with
  | none => .quiet
  | some time => if time ≤ limit then .tick time else .quiet

/-- What happens next up to `limit`. A fetch that is due when a tick is comes in before it. -/
def moment (f : Feed) (limit : Nat) : Moment :=
  match f.inFlight with
  | [] => f.tickBy limit
  | fl :: rest =>
    if fl.due ≤ limit ∧ f.nextTick?.all (fl.due ≤ ·) then .landing fl rest else f.tickBy limit

/-- How far the next tick is within `limit`. -/
def ticksLeft (f : Feed) (limit : Nat) : Nat :=
  f.nextTick?.elim 0 (limit + 1 - ·)

theorem nextTick?_of_tickBy {f : Feed} {limit time : Nat} (h : f.tickBy limit = .tick time) :
    f.nextTick? = some time ∧ time ≤ limit := by
  unfold tickBy at h
  split at h
  · cases h
  · next t ht =>
    split at h
    · next hle => cases h; exact ⟨ht, hle⟩
    · cases h

theorem tickBy_ne_landing (f : Feed) (limit : Nat) (fl : Flight) (rest : List Flight) :
    f.tickBy limit ≠ .landing fl rest := by
  unfold tickBy
  split
  · simp
  · split <;> simp

theorem nextTick?_of_moment {f : Feed} {limit time : Nat} (h : f.moment limit = .tick time) :
    f.nextTick? = some time ∧ time ≤ limit := by
  unfold moment at h
  split at h
  · exact nextTick?_of_tickBy h
  · split at h
    · cases h
    · exact nextTick?_of_tickBy h

theorem inFlight_of_moment {f : Feed} {limit : Nat} {fl : Flight} {rest : List Flight}
    (h : f.moment limit = .landing fl rest) : f.inFlight = fl :: rest := by
  unfold moment at h
  split at h
  · exact absurd h (tickBy_ne_landing _ _ _ _)
  · next hf =>
    split at h
    · cases h; exact hf
    · exact absurd h (tickBy_ne_landing _ _ _ _)

theorem ticksLeft_ticked_lt {f : Feed} {limit time : Nat} (h : f.nextTick? = some time)
    (hle : time ≤ limit) (reply : Except ApiError Json × Nat) :
    (f.ticked reply).ticksLeft limit < f.ticksLeft limit := by
  obtain ⟨interval, now, schedule, inFlight, incidents, publications, landed⟩ := f
  cases schedule with
  | none => simp [nextTick?] at h
  | some s =>
    by_cases hp : s.period = 0
    · simp [nextTick?, hp] at h
    · simp only [nextTick?, hp, if_false, Option.some.injEq] at h
      simp only [ticksLeft, nextTick?, ticked, hp, if_false, Option.elim_some]
      omega

theorem ticksLeft_landFirst (f : Feed) (limit : Nat) (fl : Flight) (rest : List Flight) :
    (f.landFirst fl rest).2.ticksLeft limit = f.ticksLeft limit := by
  unfold landFirst land
  split <;> rfl

theorem inFlight_landFirst (f : Feed) (fl : Flight) (rest : List Flight) :
    (f.landFirst fl rest).2.inFlight = rest := by
  unfold landFirst land
  split <;> rfl

/-- Lets time pass up to `limit`, with every tick and every landing on the way. -/
def advance (limit : Nat) (f : Feed) : Dialogue Link Feed :=
  match _ : f.moment limit with
  | .quiet => .done { f with now := max f.now limit }
  | .tick _ => .ask (I := Link) .fetch fun reply => (f.ticked reply).advance limit
  | .landing fl rest =>
    (reportFailure .pollFailed (f.landFirst fl rest).1).bind fun _ =>
      (f.landFirst fl rest).2.advance limit
termination_by (f.ticksLeft limit, f.inFlight.length)
decreasing_by
  · obtain ⟨ht, hle⟩ := nextTick?_of_moment ‹_›
    exact Prod.Lex.left _ _ (ticksLeft_ticked_lt ht hle reply)
  · rw [ticksLeft_landFirst, inFlight_landFirst, inFlight_of_moment ‹_›]
    exact Prod.Lex.right _ (Nat.lt_succ_self _)

/-! ## Operations -/

/-- Fetches, and waits until the outcome is in. -/
def refresh (f : Feed) : Dialogue Link (Except ApiError Nat × Feed) := do
  let (outcome, latency) ← Dialogue.question (I := Link) .fetch
  let f ← f.advance (f.now + latency)
  pure (f.land outcome)

/-- Fetches at once and then at every interval. A feed that is polling only fetches. -/
def start (f : Feed) : Dialogue Link Feed := do
  let (outcome, f) ← f.refresh
  reportFailure .firstFetchFailed outcome
  if f.isPolling then pure f
  else
    report (.pollingStarted f.interval)
    pure { f with schedule := some ⟨f.now + f.interval, f.interval⟩ }

/-- Gives up the schedule. Fetches in flight still come in. -/
def stop (f : Feed) : Dialogue Link Feed := do
  if f.isPolling then report .pollingStopped
  pure { f with schedule := none }

/-- Deletes an incident on the server, and then fetches without waiting for a tick. -/
def resolve (f : Feed) (key : String) : Dialogue Link (Except ApiError Unit × Feed) := do
  match ← Dialogue.question (I := Link) (.delete key) with
  | .error cause => pure (.error cause, f)
  | .ok () =>
    report (.incidentResolved key)
    let (outcome, f) ← f.refresh
    reportFailure .refetchFailed outcome
    pure (.ok (), f)

end Feed

end AlertConsole
