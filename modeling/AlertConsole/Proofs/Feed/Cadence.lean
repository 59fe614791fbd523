import AlertConsole.Config
import AlertConsole.Proofs.Feed.Operations

/-!
# The cadence of the schedule

A schedule that was made at a time `t` ticks at `t + p`, `t + 2p` and so on, however long fetches
take and whatever they give, until it is given up (`ticks_of_schedule`); without one only operations
issue fetches (`issued_of_stopped`). A feed has at most one schedule, and an operation makes one only
when `start` ends on a feed that has none (`one_schedule`).
-/

namespace AlertConsole

/-- The happening makes a schedule or gives it up. -/
def Happening.IsSwitch : Happening → Prop
  | .scheduled => True
  | .stopped => True
  | _ => False

namespace Traffic

/-! ## Who issues a fetch -/

/-- The time at which the schedule issues a fetch. -/
def tick? (s : Traffic) : Happening → Option Nat
  | .ticked _ => s.feed.nextTick?
  | _ => none

def ticks (s : Traffic) : List Happening → List Nat
  | [] => []
  | h :: hs => (s.tick? h).toList ++ (s.step h).ticks hs

/-- The fetches that operations issue. -/
def asks (hs : List Happening) : List Reply :=
  hs.filterMap fun
    | .asked reply => some reply
    | _ => none

variable {s : Traffic} {h : Happening} {hs : List Happening}

theorem isPolling_of_nextTick? {f : Feed} {time : Nat} (h : f.nextTick? = some time) :
    f.isPolling = true := by
  unfold Feed.nextTick? at h
  unfold Feed.isPolling
  rcases hschedule : f.schedule with _ | schedule
  · rw [hschedule] at h
    cases h
  · rfl

/-- Every fetch is one of a tick or one of an operation. -/
theorem issued_length (hontime : s.OnTime hs) :
    (s.issued hs).length = (s.ticks hs).length + (asks hs).length := by
  induction hs generalizing s with
  | nil => rfl
  | cons h hs ih =>
    obtain ⟨htimely, -, hrest⟩ := hontime
    have hone : (s.issue? h).toList.length = (s.tick? h).toList.length + (asks [h]).length := by
      cases h with
      | ticked reply =>
        obtain ⟨time, htick, -⟩ := htimely
        rw [issue?, if_pos (isPolling_of_nextTick? htick), tick?, htick]
        rfl
      | _ => rfl
    have hasks : asks (h :: hs) = asks [h] ++ asks hs := List.filterMap_append (l := [h])
    rw [issued, ticks, hasks, List.length_append, List.length_append, List.length_append, ih hrest,
      hone]
    omega

/-! ## Without a schedule -/

theorem issued_of_stopped (hstopped : s.feed.isPolling = false) (hhs : .scheduled ∉ hs) :
    s.ticks hs = [] ∧ s.issued hs = asks hs := by
  induction hs generalizing s with
  | nil => exact ⟨rfl, rfl⟩
  | cons h hs ih =>
    obtain ⟨hh, hrest⟩ := List.ne_and_not_mem_of_not_mem_cons hhs
    have hpolling : (s.step h).feed.isPolling = false := by
      rw [isPolling_step, hstopped]
      cases h with
      | scheduled => exact absurd rfl hh
      | _ => rfl
    obtain ⟨hticks, hissued⟩ := ih hpolling hrest
    have hnone : s.feed.schedule = none := Option.isNone_iff_eq_none.1 (by
      rw [← Option.not_isSome, ← Feed.isPolling, hstopped]
      rfl)
    have htick : s.tick? h = none := by
      cases h with
      | ticked reply => rw [tick?, Feed.nextTick?, hnone]
      | _ => rfl
    have hissue : (s.issue? h).toList = asks [h] := by
      cases h with
      | ticked reply =>
        rw [issue?, hstopped]
        rfl
      | _ => rfl
    refine ⟨?_, ?_⟩
    · rw [ticks, htick, hticks]
      rfl
    · rw [issued, hissue, hissued]
      exact (List.filterMap_append (l := [h])).symm

/-! ## With a schedule -/

/-- The schedule ticks next at `next`, which is at most one period from now. -/
structure Armed (s : Traffic) (next p : Nat) : Prop where
  schedule : s.feed.schedule = some ⟨next, p⟩
  ahead : s.feed.now ≤ next
  within : next ≤ s.feed.now + p

variable {next p : Nat}

theorem Armed.nextTick? (hs : s.Armed next p) (hp : 0 < p) : s.feed.nextTick? = some next := by
  rw [Feed.nextTick?, hs.schedule]
  exact if_neg (Nat.ne_of_gt hp)

theorem Armed.ticked (hs : s.Armed next p) (reply : Reply) :
    (s.step (.ticked reply)).Armed (next + p) p := by
  have hticked : s.step (.ticked reply) =
      { s with feed :=
        { s.feed with
          now := next
          schedule := some ⟨next + p, p⟩
          inFlight := Feed.insertFlight ⟨next + reply.2, reply.1⟩ s.feed.inFlight } } := by
    simp only [step, ending?, prepare, Feed.ticked, hs.schedule]
  rw [hticked]
  exact ⟨rfl, Nat.le_add_right next p, Nat.le_refl _⟩

/-- The end of a fetch touches neither the schedule nor the clock nor the period. -/
theorem feed_step (s : Traffic) (h : Happening) :
    (s.step h).feed.schedule = (s.prepare h).feed.schedule ∧
      (s.step h).feed.now = (s.prepare h).feed.now ∧
      (s.step h).feed.interval = (s.prepare h).feed.interval := by
  unfold step
  split
  · exact ⟨rfl, rfl, rfl⟩
  · exact ⟨Feed.schedule_land _ _, Feed.now_land _ _, Feed.interval_land _ _⟩

/-- What is no tick leaves the schedule as it is, and the clock before it. -/
theorem Armed.step (hs : s.Armed next p) (hp : 0 < p) (htimely : s.Timely h) (hprompt : s.Prompt h)
    (hswitch : ¬h.IsSwitch) (htick : s.tick? h = none) : (s.step h).Armed next p := by
  obtain ⟨hschedule, hnow, -⟩ := s.feed_step h
  have hahead := hs.ahead
  have hwithin := hs.within
  have hprepare : (s.prepare h).feed.schedule = s.feed.schedule ∧
      s.feed.now ≤ (s.prepare h).feed.now ∧ (s.prepare h).feed.now ≤ next := by
    cases h with
    | passed time => exact ⟨rfl, htimely, hprompt next (hs.nextTick? hp)⟩
    | ticked reply =>
      rw [tick?, hs.nextTick? hp] at htick
      cases htick
    | scheduled => exact absurd trivial hswitch
    | stopped => exact absurd trivial hswitch
    | _ => exact ⟨rfl, Nat.le_refl _, hahead⟩
  obtain ⟨hkept, hlater, hlimit⟩ := hprepare
  refine ⟨?_, ?_, ?_⟩
  · rw [hschedule, hkept, hs.schedule]
  · rw [hnow]
    exact hlimit
  · rw [hnow]
    omega

/-- Ticks come one period apart, and none is left out. -/
theorem ticks_of_schedule (hp : 0 < p) (harmed : s.Armed next p) (hontime : s.OnTime hs)
    (hkept : ∀ h ∈ hs, ¬h.IsSwitch) :
    ∃ k, s.ticks hs = (List.range k).map (next + · * p) ∧ (s.run hs).Armed (next + k * p) p := by
  induction hs generalizing s next with
  | nil =>
    refine ⟨0, rfl, ?_⟩
    rw [Nat.zero_mul, Nat.add_zero]
    exact harmed
  | cons h hs ih =>
    obtain ⟨htimely, hprompt, hrest⟩ := hontime
    obtain ⟨hswitch, hlater⟩ := List.forall_mem_cons.1 hkept
    rcases htick : s.tick? h with _ | time
    · obtain ⟨k, hticks, hend⟩ := ih (harmed.step hp htimely hprompt hswitch htick) hrest hlater
      refine ⟨k, ?_, hend⟩
      rw [ticks, htick, hticks]
      rfl
    · obtain ⟨reply, rfl⟩ : ∃ reply, h = .ticked reply := by
        cases h with
        | ticked reply => exact ⟨reply, rfl⟩
        | _ => cases htick
      have htime : time = next := by
        rw [tick?, harmed.nextTick? hp] at htick
        exact (Option.some.inj htick).symm
      obtain ⟨k, hticks, hend⟩ := ih (harmed.ticked reply) hrest hlater
      refine ⟨k + 1, ?_, ?_⟩
      · rw [ticks, htick, hticks, htime, List.range_succ_eq_map, List.map_cons, List.map_map,
          Nat.zero_mul, Nat.add_zero]
        refine congrArg (next :: ·) (List.map_congr_left fun j _ => ?_)
        show next + p + j * p = next + (j + 1) * p
        rw [Nat.succ_mul]
        omega
      · have hnext : next + (k + 1) * p = next + p + k * p := by
          rw [Nat.succ_mul]
          omega
        rw [hnext]
        exact hend

example (reply : Reply) : (idle 10).ticks
    [.passed 3, .scheduled, .passed 13, .ticked reply, .passed 23, .ticked reply] = [13, 23] :=
  rfl

theorem interval_run (s : Traffic) (hs : List Happening) :
    (s.run hs).feed.interval = s.feed.interval := by
  induction hs generalizing s with
  | nil => rfl
  | cons h hs ih =>
    have hprepare : (s.prepare h).feed.interval = s.feed.interval := by
      cases h with
      | ticked reply => exact s.feed.interval_ticked reply
      | _ => rfl
    rw [run_cons, ih, (s.feed_step h).2.2, hprepare]

theorem armed_of_scheduled (s : Traffic) :
    (s.step .scheduled).Armed (s.feed.now + s.feed.interval) s.feed.interval :=
  ⟨rfl, Nat.le_add_right _ _, Nat.le_refl _⟩

end Traffic

/-! ## Operations -/

namespace Feed

/-- Whether a feed is polling after a call. -/
def Call.pollsAfter (polling : Bool) : Call → Bool
  | .start => true
  | .stop => false
  | _ => polling

theorem Course.foldl_pollsAfter {polling : Bool} {call : Call} {hs : List Happening}
    (h : Course polling call hs) : hs.foldl Traffic.pollsAfter polling = call.pollsAfter polling := by
  cases h with
  | start hfetch =>
    rw [List.foldl_append, hfetch.foldl_pollsAfter]
    cases polling <;> rfl
  | stop => rfl
  | refresh hfetch => exact hfetch.foldl_pollsAfter
  | resolve hfetch => exact hfetch.foldl_pollsAfter
  | refused => rfl
  | wait hbackground => exact foldl_pollsAfter_of_background hbackground

theorem Courses.isPolling {s : Traffic} {calls : List Call} {hs : List Happening}
    (h : Courses s calls hs) :
    (s.run hs).feed.isPolling = calls.foldl Call.pollsAfter s.feed.isPolling := by
  induction calls generalizing s hs with
  | nil =>
    rw [Courses] at h
    rw [h]
    rfl
  | cons call rest ih =>
    obtain ⟨first, later, rfl, hcourse, hrest⟩ := h
    rw [Traffic.run_append, ih hrest, Traffic.isPolling_run, hcourse.foldl_pollsAfter,
      List.foldl_cons]

/-- Stopping a feed that has no schedule asks nothing and changes nothing. -/
theorem stop_of_stopped {f : Feed} (h : f.isPolling = false) : f.stop = .done f := by
  have hnone : f.schedule = none := Option.isNone_iff_eq_none.1 (by
    rw [← Option.not_isSome, ← Feed.isPolling, h]
    rfl)
  have hsame : ({ f with schedule := none } : Feed) = f := by
    rw [← hnone]
  rw [stop, h, hsame]
  rfl

/-! ### Starting -/

theorem asks_of_background {hs : List Happening} (h : ∀ h ∈ hs, h.IsBackground) :
    Traffic.asks hs = [] := by
  rw [Traffic.asks, List.filterMap_eq_nil_iff]
  intro first hfirst
  cases first with
  | asked reply => exact (h _ hfirst).elim
  | _ => rfl

/-- An operation that fetches issues one fetch and leaves the schedule alone. -/
theorem asks_of_isFetch {hs : List Happening} (h : IsFetch hs) :
    (Traffic.asks hs).length = 1 ∧ ∀ h ∈ hs, ¬h.IsSwitch := by
  obtain ⟨reply, meanwhile, index, hmeanwhile, rfl⟩ := h
  have hasks : Traffic.asks (.asked reply :: meanwhile ++ [.answered index]) =
      reply :: (Traffic.asks meanwhile ++ []) :=
    congrArg (reply :: ·) List.filterMap_append
  refine ⟨?_, fun h hmem => ?_⟩
  · rw [hasks, asks_of_background hmeanwhile]
    rfl
  · rw [List.cons_append, List.mem_cons, List.mem_append, List.mem_singleton] at hmem
    rcases hmem with rfl | hmem | rfl
    · exact id
    · have hbackground := hmeanwhile h hmem
      cases h with
      | scheduled => exact hbackground.elim
      | stopped => exact hbackground.elim
      | _ => exact id
    · exact id

end Feed

namespace Traffic

/-! ## One schedule -/

/-- When a feed that polls every `p` milliseconds fetches, over whatever time and whatever
replies. -/
structure Cadence (p : Nat) : Prop where
  /-- A schedule that is made at `t` issues one fetch at each of `t + p`, `t + 2p` and so on. -/
  ticking : ∀ before after, (idle p).OnTime (before ++ .scheduled :: after) →
    (∀ h ∈ after, ¬h.IsSwitch) →
      ∃ k,
        ((idle p).run (before ++ [.scheduled])).ticks after =
          (List.range k).map (fun j => ((idle p).run before).feed.now + (j + 1) * p) ∧
        (((idle p).run (before ++ [.scheduled])).issued after).length =
          k + (asks after).length ∧
        ((idle p).run before).feed.now + k * p ≤
          ((idle p).run (before ++ .scheduled :: after)).feed.now ∧
        ((idle p).run (before ++ .scheduled :: after)).feed.now ≤
          ((idle p).run before).feed.now + (k + 1) * p
  /-- Without a schedule only operations issue fetches. -/
  stopped : ∀ before after, ((idle p).run before).feed.isPolling = false → .scheduled ∉ after →
    ((idle p).run before).ticks after = [] ∧ ((idle p).run before).issued after = asks after
  /-- A feed is polling from the making of a schedule until it is given up. -/
  polling : ∀ hs, ((idle p).run hs).feed.isPolling = hs.foldl pollsAfter false
  /-- A start fetches once, and makes a schedule when the fetch is answered. -/
  starting : ∀ hs, Feed.Course false .start hs → ∃ fetch, hs = fetch ++ [.scheduled] ∧
    IsFetch fetch ∧ (asks fetch).length = 1 ∧ ∀ h ∈ fetch, ¬h.IsSwitch
  /-- A start of a feed that is polling fetches once, and that is all. -/
  again : ∀ hs, Feed.Course true .start hs →
    IsFetch hs ∧ (asks hs).length = 1 ∧ ∀ h ∈ hs, ¬h.IsSwitch
  /-- Whatever is asked of a feed, it goes through the courses of its calls on time. -/
  calls : ∀ calls log f, ((Feed.idle p).performAll calls).Runs log f →
    f.isPolling = calls.foldl Feed.Call.pollsAfter false ∧
      ∃ hs, Feed.Courses (idle p) calls hs ∧ (idle p).Passes hs log ⟨f, []⟩
  /-- A stop without a schedule asks nothing and changes nothing. -/
  stopping : ∀ f : Feed, f.isPolling = false → f.stop = .done f

theorem cadence_ticking {p : Nat} (hp : 0 < p) {before after : List Happening}
    (hontime : (idle p).OnTime (before ++ .scheduled :: after)) (hkept : ∀ h ∈ after, ¬h.IsSwitch) :
    ∃ k,
      ((idle p).run (before ++ [.scheduled])).ticks after =
        (List.range k).map (fun j => ((idle p).run before).feed.now + (j + 1) * p) ∧
      (((idle p).run (before ++ [.scheduled])).issued after).length = k + (asks after).length ∧
      ((idle p).run before).feed.now + k * p ≤
        ((idle p).run (before ++ .scheduled :: after)).feed.now ∧
      ((idle p).run (before ++ .scheduled :: after)).feed.now ≤
        ((idle p).run before).feed.now + (k + 1) * p := by
  obtain ⟨-, -, -, hafter⟩ := ((idle p).onTime_append before (.scheduled :: after)).1 hontime
  have harmed := armed_of_scheduled ((idle p).run before)
  have hinterval : ((idle p).run before).feed.interval = p := interval_run (idle p) before
  rw [hinterval] at harmed
  obtain ⟨k, hticks, hend⟩ := ticks_of_schedule hp harmed hafter hkept
  have hscheduled : (idle p).run (before ++ [.scheduled]) =
      ((idle p).run before).step .scheduled := by
    rw [run_append]
    rfl
  have hrun : (idle p).run (before ++ .scheduled :: after) =
      (((idle p).run before).step .scheduled).run after := by
    rw [run_append]
    rfl
  have hahead := hend.ahead
  have hwithin := hend.within
  have hperiods : (k + 1) * p = k * p + p := Nat.succ_mul k p
  rw [hscheduled, hrun]
  refine ⟨k, ?_, ?_, ?_, ?_⟩
  · rw [hticks]
    refine List.map_congr_left fun j _ => ?_
    rw [Nat.succ_mul]
    omega
  · rw [issued_length hafter, hticks, List.length_map, List.length_range]
  · omega
  · omega

theorem one_schedule {p : Nat} (hp : 0 < p) : Cadence p where
  ticking _ _ hontime hkept := cadence_ticking hp hontime hkept
  stopped _ _ hstopped hafter := issued_of_stopped hstopped hafter
  polling hs := isPolling_run (idle p) hs
  starting hs hcourse := by
    obtain ⟨hfetch⟩ := hcourse
    exact ⟨_, rfl, hfetch, Feed.asks_of_isFetch hfetch⟩
  again hs hcourse := by
    obtain ⟨hfetch⟩ := hcourse
    rw [if_pos rfl, List.append_nil]
    exact ⟨hfetch, Feed.asks_of_isFetch hfetch⟩
  calls calls log f hruns := by
    obtain ⟨hs, hcourses, hpasses, -⟩ := Feed.passes_performAll [] (Feed.punctual_idle p) hruns
    have hpolling := Feed.Courses.isPolling hcourses
    rw [hpasses.run] at hpolling
    exact ⟨hpolling, hs, hcourses, hpasses⟩
  stopping _ hstopped := Feed.stop_of_stopped hstopped

/-- A schedule that ticks every five seconds. -/
theorem one_schedule_of_standard : 0 < Config.standard.pollInterval ∧
    Cadence Config.standard.pollInterval :=
  ⟨by decide, one_schedule (by decide)⟩

end Traffic

end AlertConsole
