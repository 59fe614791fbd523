import AlertConsole.Proofs.Feed.Cadence
import AlertConsole.Proofs.Feed.Quiet

/-!
# Feeds that say they are polling

A feed says that it is polling when it has a schedule. With a positive interval the schedule then
goes on: its next fetch is due within the interval, and until the feed is stopped it issues one
fetch at each interval, whatever else is asked of the feed. With the interval 0 the schedule never issues
any, but the feed says that it is polling all the same (`keepsPolling_iff`).
-/

namespace AlertConsole

namespace Feed

/-- The next fetch of the schedule is due at `next`, at most one period from now. -/
structure Due (f : Feed) (period next : Nat) : Prop where
  tick : f.nextTick? = some next
  ahead : f.now ≤ next
  within : next ≤ f.now + period

/-- From `f` to `f'` the schedule issues `k` fetches, one for each interval from `first` on, and no
other fetches are issued than these and those of the calls. -/
def Keeps (f : Feed) (calls : List Call) (log : List (Exchange Link)) (f' : Feed)
    (first interval k : Nat) : Prop :=
  ∃ hs, Courses ⟨f, []⟩ calls hs ∧ Traffic.Passes ⟨f, []⟩ hs log ⟨f', []⟩ ∧
    Traffic.ticks ⟨f, []⟩ hs = (List.range k).map (first + · * interval) ∧
    (fetches log).length = k + (Traffic.asks hs).length

/-- Whenever a feed says that it is polling, its schedule is to issue a fetch, and goes on with one
fetch at each interval until the feed is stopped. -/
def KeepsPolling (interval : Nat) : Prop :=
  ∀ calls log f, ((idle interval).performAll calls).Runs log f → f.isPolling = true →
    ∃ first, f.Due interval first ∧
      ∀ later log' f', .stop ∉ later → (f.performAll later).Runs log' f' →
        f'.isPolling = true ∧ ∃ k, f'.Due interval (first + k * interval) ∧
          f.Keeps later log' f' first interval k

end Feed

/-! ## Schedules that were made -/

namespace Traffic

variable {s : Traffic} {h : Happening} {hs : List Happening} {p : Nat}

/-- A feed with a schedule ticks next within a period. -/
def Scheduled (s : Traffic) (p : Nat) : Prop :=
  s.feed.interval = p ∧ (s.feed.isPolling = true → ∃ next, s.Armed next p)

theorem interval_step (s : Traffic) (h : Happening) : (s.step h).feed.interval = s.feed.interval :=
  interval_run s [h]

theorem Scheduled.step (hs : s.Scheduled p) (hp : 0 < p) (htimely : s.Timely h)
    (hprompt : s.Prompt h) : (s.step h).Scheduled p := by
  obtain ⟨hinterval, harmed⟩ := hs
  refine ⟨(interval_step s h).trans hinterval, fun hpolling => ?_⟩
  rw [isPolling_step] at hpolling
  cases h with
  | scheduled =>
    rw [← hinterval]
    exact ⟨_, armed_of_scheduled s⟩
  | stopped => cases hpolling
  | ticked reply =>
    obtain ⟨next, hnext⟩ := harmed hpolling
    exact ⟨_, hnext.ticked reply⟩
  | _ =>
    obtain ⟨next, hnext⟩ := harmed hpolling
    exact ⟨next, hnext.step hp htimely hprompt id rfl⟩

theorem Scheduled.run (hs : s.Scheduled p) (hp : 0 < p) {happenings : List Happening}
    (hontime : s.OnTime happenings) : (s.run happenings).Scheduled p := by
  induction happenings generalizing s with
  | nil => exact hs
  | cons h rest ih =>
    obtain ⟨htimely, hprompt, hrest⟩ := hontime
    exact ih (hs.step hp htimely hprompt) hrest

theorem scheduled_idle (p : Nat) : (idle p).Scheduled p :=
  ⟨rfl, fun hpolling => nomatch hpolling⟩

theorem Armed.due {f : Feed} {awaited : List Flight} {next : Nat} (hp : 0 < p)
    (h : Armed ⟨f, awaited⟩ next p) : f.Due p next :=
  ⟨h.nextTick? hp, h.ahead, h.within⟩

theorem Armed.isPolling {f : Feed} {awaited : List Flight} {next : Nat}
    (h : Armed ⟨f, awaited⟩ next p) : f.isPolling = true :=
  congrArg Option.isSome h.schedule

end Traffic

/-! ## Calls that do not stop the feed -/

namespace Feed

theorem Course.switchless {call : Call} {hs : List Happening} (h : Course true call hs)
    (hcall : call ≠ .stop) : ∀ h ∈ hs, ¬h.IsSwitch := by
  cases h with
  | start hfetch =>
    rw [if_pos rfl, List.append_nil]
    exact (asks_of_isFetch hfetch).2
  | stop => exact absurd rfl hcall
  | refresh hfetch => exact (asks_of_isFetch hfetch).2
  | resolve hfetch => exact (asks_of_isFetch hfetch).2
  | refused => exact fun h hh => nomatch hh
  | wait hbackground =>
    intro h hh
    have hh := hbackground h hh
    cases h with
    | scheduled => exact absurd hh id
    | stopped => exact absurd hh id
    | _ => exact id

theorem Courses.switchless {s : Traffic} {calls : List Call} {hs : List Happening}
    (h : Courses s calls hs) (hpolling : s.feed.isPolling = true) (hcalls : .stop ∉ calls) :
    ∀ h ∈ hs, ¬h.IsSwitch := by
  induction calls generalizing s hs with
  | nil =>
    rw [Courses] at h
    rw [h]
    intro h hh
    cases hh
  | cons call rest ih =>
    obtain ⟨first, later, rfl, hcourse, hrest⟩ := h
    obtain ⟨hcall, hcalls⟩ := List.ne_and_not_mem_of_not_mem_cons hcalls
    have hkept : (s.run first).feed.isPolling = true := by
      rw [Traffic.isPolling_run, hcourse.foldl_pollsAfter, hpolling]
      cases call with
      | stop => exact absurd rfl hcall
      | _ => rfl
    rw [hpolling] at hcourse
    intro h hh
    rcases List.mem_append.1 hh with hh | hh
    · exact hcourse.switchless (Ne.symm hcall) h hh
    · exact ih hrest hkept hcalls h hh

theorem keepsPolling_of_pos {interval : Nat} (hp : 0 < interval) : KeepsPolling interval := by
  intro calls log f hruns hpolling
  obtain ⟨before, -, hbefore, hpunctual⟩ := passes_performAll [] (punctual_idle interval) hruns
  have hscheduled := (Traffic.scheduled_idle interval).run hp hbefore.onTime
  have hrun : (Traffic.idle interval).run before = ⟨f, []⟩ := hbefore.run
  rw [hrun] at hscheduled
  obtain ⟨first, harmed⟩ := hscheduled.2 hpolling
  refine ⟨first, harmed.due hp, fun later log' f' hlater hruns' => ?_⟩
  obtain ⟨hs, hcourses, hpasses, -⟩ := passes_performAll [] hpunctual hruns'
  obtain ⟨k, hticks, hend⟩ := Traffic.ticks_of_schedule hp harmed hpasses.onTime
    (hcourses.switchless hpolling hlater)
  rw [hpasses.run] at hend
  refine ⟨hend.isPolling, k, hend.due hp, hs, hcourses, hpasses, hticks, ?_⟩
  rw [← hpasses.issued, Traffic.issued_length hpasses.onTime, hticks, List.length_map,
    List.length_range]

end Feed

/-! ## The interval 0 -/

namespace Traffic

theorem nextTick?_of_schedule_zero {f : Feed} {next : Nat} (h : f.schedule = some ⟨next, 0⟩) :
    f.nextTick? = none := by
  rw [Feed.nextTick?, h]
  rfl

/-- A schedule with the period 0 is there as long as it is not given up, and never ticks. -/
theorem ticks_of_schedule_zero {s : Traffic} {next : Nat} {hs : List Happening}
    (hschedule : s.feed.schedule = some ⟨next, 0⟩) (hontime : s.OnTime hs)
    (hkept : ∀ h ∈ hs, ¬h.IsSwitch) :
    s.ticks hs = [] ∧ (s.run hs).feed.schedule = some ⟨next, 0⟩ := by
  induction hs generalizing s with
  | nil => exact ⟨rfl, hschedule⟩
  | cons h hs ih =>
    obtain ⟨htimely, -, hrest⟩ := hontime
    obtain ⟨hswitch, hlater⟩ := List.forall_mem_cons.1 hkept
    have hnone := nextTick?_of_schedule_zero hschedule
    have hfirst : s.tick? h = none ∧ (s.prepare h).feed.schedule = s.feed.schedule := by
      cases h with
      | ticked reply =>
        obtain ⟨time, htick, -⟩ := htimely
        rw [hnone] at htick
        cases htick
      | scheduled => exact absurd trivial hswitch
      | stopped => exact absurd trivial hswitch
      | _ => exact ⟨rfl, rfl⟩
    have hstep : (s.step h).feed.schedule = some ⟨next, 0⟩ := by
      rw [(s.feed_step h).1, hfirst.2, hschedule]
    obtain ⟨hticks, hend⟩ := ih hstep hrest hlater
    refine ⟨?_, hend⟩
    rw [ticks, hfirst.1, hticks]
    rfl

end Traffic

namespace Feed

theorem listing?_null : listing? (.ok .null) = some [] := by
  show some (Listing.order .empty) = some []
  rw [Listing.order, KeyMap.empty, List.map_nil, List.mergeSort_nil]

theorem exists_runs_start_zero :
    ∃ log f, ((idle 0).performAll [.start]).Runs log f ∧ f.schedule = some ⟨0, 0⟩ := by
  have hquiet : (idle 0).moment ((idle 0).now + 0) = .quiet := rfl
  have hstart := runs_start_of_quiet hquiet rfl listing?_null
  exact ⟨_, _, Dialogue.runs_bind_iff.2 ⟨_, _, [], rfl, hstart, .done _⟩, rfl⟩

/-- A feed with the interval 0 says that it is polling, but nothing is fetched except by calls. -/
theorem silent_of_interval_zero : ∃ log f, ((idle 0).performAll [.start]).Runs log f ∧
    f.isPolling = true ∧ f.nextTick? = none ∧
    ∀ later log' f', .stop ∉ later → (f.performAll later).Runs log' f' →
      f'.isPolling = true ∧ f.Keeps later log' f' 0 0 0 := by
  obtain ⟨log, f, hruns, hschedule⟩ := exists_runs_start_zero
  have hpolling : f.isPolling = true := congrArg Option.isSome hschedule
  obtain ⟨_, -, -, hpunctual⟩ := passes_performAll [] (punctual_idle 0) hruns
  refine ⟨log, f, hruns, hpolling, Traffic.nextTick?_of_schedule_zero hschedule, ?_⟩
  intro later log' f' hlater hruns'
  obtain ⟨hs, hcourses, hpasses, -⟩ := passes_performAll [] hpunctual hruns'
  obtain ⟨hticks, hend⟩ := Traffic.ticks_of_schedule_zero hschedule hpasses.onTime
    (hcourses.switchless hpolling hlater)
  rw [hpasses.run] at hend
  refine ⟨congrArg Option.isSome hend, hs, hcourses, hpasses, hticks, ?_⟩
  rw [← hpasses.issued, Traffic.issued_length hpasses.onTime, hticks]
  rfl

/-- A feed that says it is polling goes on polling exactly if the interval is not 0. -/
theorem keepsPolling_iff (interval : Nat) : KeepsPolling interval ↔ 0 < interval := by
  refine ⟨fun h => Nat.pos_of_ne_zero ?_, keepsPolling_of_pos⟩
  rintro rfl
  obtain ⟨log, f, hruns, hpolling, hnone, -⟩ := silent_of_interval_zero
  obtain ⟨first, hdue, -⟩ := h _ log f hruns hpolling
  have htick := hdue.tick
  rw [hnone] at htick
  cases htick

end Feed

end AlertConsole
