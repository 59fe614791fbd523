import AlertConsole.Proofs.Dialogue
import AlertConsole.Proofs.Feed.Advance
import AlertConsole.Proofs.Feed.Traffic

/-!
# Operations as happenings

Whatever the surroundings answer, a run of the operations of a feed is a sequence of happenings that
keeps to the clock: time never goes back nor past a tick, and a fetch ends at the time at which it
is due. Every operation has its own course of happenings, and the fetches issued are those asked of
the surroundings, in the same order (`passes_performAll`).
-/

namespace AlertConsole

/-! ## Keeping to the clock -/

namespace Traffic

/-- The happening may come now. -/
def Timely (s : Traffic) : Happening → Prop
  | .passed time => s.feed.now ≤ time
  | .ticked _ => ∃ time, s.feed.nextTick? = some time ∧ s.feed.now ≤ time
  | .landed index => s.feed.inFlight[index]?.map Flight.due = some s.feed.now
  | .answered index => s.awaited[index]?.map Flight.due = some s.feed.now
  | .scheduled => s.feed.isPolling = false
  | .asked _ => True
  | .stopped => True

def Timed (s : Traffic) : List Happening → Prop
  | [] => True
  | h :: hs => s.Timely h ∧ (s.step h).Timed hs

/-- The clock does not go past the next tick. -/
def Prompt (s : Traffic) : Happening → Prop
  | .passed time => ∀ next, s.feed.nextTick? = some next → time ≤ next
  | _ => True

/-- Happenings that come when they may, with no tick left out. -/
def OnTime (s : Traffic) : List Happening → Prop
  | [] => True
  | h :: hs => s.Timely h ∧ s.Prompt h ∧ (s.step h).OnTime hs

theorem onTime_append (s : Traffic) (hs hs' : List Happening) :
    s.OnTime (hs ++ hs') ↔ s.OnTime hs ∧ (s.run hs).OnTime hs' := by
  induction hs generalizing s with
  | nil => exact (iff_of_eq (true_and _)).symm
  | cons h hs ih => rw [List.cons_append, OnTime, OnTime, ih, run_cons, and_assoc, and_assoc]

theorem OnTime.timed {s : Traffic} {hs : List Happening} (h : s.OnTime hs) : s.Timed hs := by
  induction hs generalizing s with
  | nil => trivial
  | cons first rest ih => exact ⟨h.1, ih h.2.2⟩

end Traffic

/-- The fetches asked for in a log, with their replies. -/
def fetches (log : List (Exchange Feed.Link)) : List Reply :=
  log.filterMap fun
    | ⟨.fetch, reply⟩ => some reply
    | _ => none

theorem fetches_append (log log' : List (Exchange Feed.Link)) :
    fetches (log ++ log') = fetches log ++ fetches log' :=
  List.filterMap_append

namespace Traffic

/-- Happenings that keep to the clock lead from `s` to `s'` and issue the fetches of the log. -/
def Follows (s : Traffic) (log : List (Exchange Feed.Link)) (s' : Traffic) : Prop :=
  ∃ hs, s.Timed hs ∧ s.run hs = s' ∧ s.issued hs = fetches log

/-- The happenings lead on time from `s` to `s'` and issue the fetches of the log. -/
structure Passes (s : Traffic) (hs : List Happening) (log : List (Exchange Feed.Link))
    (s' : Traffic) : Prop where
  onTime : s.OnTime hs
  run : s.run hs = s'
  issued : s.issued hs = fetches log

variable {s s' s'' : Traffic} {hs hs' : List Happening} {log log' : List (Exchange Feed.Link)}

theorem Passes.follows (h : s.Passes hs log s') : s.Follows log s' :=
  ⟨hs, h.onTime.timed, h.run, h.issued⟩

theorem Passes.nil (h : fetches log = []) : s.Passes [] log s :=
  ⟨trivial, rfl, h.symm⟩

theorem Passes.append (h : s.Passes hs log s') (h' : s'.Passes hs' log' s'') :
    s.Passes (hs ++ hs') (log ++ log') s'' := by
  obtain ⟨hontime, rfl, hissued⟩ := h
  refine ⟨(s.onTime_append hs hs').2 ⟨hontime, h'.onTime⟩, ?_, ?_⟩
  · rw [run_append, h'.run]
  · rw [issued_append, hissued, h'.issued, fetches_append]

/-- Questions that issue no fetch. -/
theorem Passes.quiet (h : s.Passes hs log s') (hquiet : fetches log' = []) :
    s.Passes hs (log ++ log') s' := by
  refine ⟨h.onTime, h.run, ?_⟩
  rw [h.issued, fetches_append, hquiet, List.append_nil]

theorem Passes.single {h : Happening} (htimely : s.Timely h) (hprompt : s.Prompt h)
    (hstep : s.step h = s') (hissue : (s.issue? h).toList = fetches log) :
    s.Passes [h] log s' :=
  ⟨⟨htimely, hprompt, trivial⟩, hstep, by rw [Traffic.issued, Traffic.issued, hissue, List.append_nil]⟩

/-! ## Whether a feed is polling -/

/-- Whether there is a schedule after a happening. -/
def pollsAfter (polling : Bool) : Happening → Bool
  | .scheduled => true
  | .stopped => false
  | _ => polling

theorem isPolling_step (s : Traffic) (h : Happening) :
    (s.step h).feed.isPolling = pollsAfter s.feed.isPolling h := by
  have hprepare : (s.prepare h).feed.isPolling = pollsAfter s.feed.isPolling h := by
    cases h with
    | ticked reply => exact s.feed.isPolling_ticked reply
    | _ => rfl
  rw [← hprepare, step]
  split
  · rfl
  · exact Feed.isPolling_land _ _

theorem isPolling_run (s : Traffic) (hs : List Happening) :
    (s.run hs).feed.isPolling = hs.foldl pollsAfter s.feed.isPolling := by
  induction hs generalizing s with
  | nil => rfl
  | cons h hs ih => rw [run_cons, ih, isPolling_step, List.foldl_cons]

end Traffic

/-! ## Courses of happenings -/

/-- Nothing that an operation does. -/
def Happening.IsBackground : Happening → Prop
  | .passed _ => True
  | .ticked _ => True
  | .landed _ => True
  | _ => False

/-- One fetch of an operation, and what goes on until it is answered. -/
def IsFetch (hs : List Happening) : Prop :=
  ∃ reply meanwhile index, (∀ h ∈ meanwhile, h.IsBackground) ∧
    hs = .asked reply :: meanwhile ++ [.answered index]

theorem foldl_pollsAfter_of_background {polling : Bool} {hs : List Happening}
    (h : ∀ h ∈ hs, h.IsBackground) : hs.foldl Traffic.pollsAfter polling = polling := by
  induction hs with
  | nil => rfl
  | cons first rest ih =>
    obtain ⟨hfirst, hrest⟩ := List.forall_mem_cons.1 h
    have hsame : Traffic.pollsAfter polling first = polling := by
      cases first with
      | scheduled => exact hfirst.elim
      | stopped => exact hfirst.elim
      | _ => rfl
    rw [List.foldl_cons, hsame, ih hrest]

theorem IsFetch.foldl_pollsAfter {polling : Bool} {hs : List Happening} (h : IsFetch hs) :
    hs.foldl Traffic.pollsAfter polling = polling := by
  obtain ⟨reply, meanwhile, index, hmeanwhile, rfl⟩ := h
  rw [List.cons_append, List.foldl_cons, List.foldl_append,
    foldl_pollsAfter_of_background hmeanwhile]
  rfl

namespace Feed

/-- What can be asked of a feed. -/
inductive Call where
  | start
  | stop
  | refresh
  | resolve (key : String)
  /-- Time is left to pass. -/
  | wait (milliseconds : Nat)

def perform (f : Feed) : Call → Dialogue Link Feed
  | .start => f.start
  | .stop => f.stop
  | .refresh => Prod.snd <$> f.refresh
  | .resolve key => Prod.snd <$> f.resolve key
  | .wait milliseconds => f.advance (f.now + milliseconds)

/-- Calls made one after the other. -/
def performAll (f : Feed) : List Call → Dialogue Link Feed
  | [] => pure f
  | call :: rest => do (← f.perform call).performAll rest

/-- The happenings of one call, by whether the feed is polling when it is made. -/
inductive Course (polling : Bool) : Call → List Happening → Prop where
  /-- A feed that is polling fetches, and its schedule stays; any other one gets a schedule. -/
  | start {hs : List Happening} :
    IsFetch hs → Course polling .start (hs ++ if polling then [] else [.scheduled])
  | stop : Course polling .stop [.stopped]
  | refresh {hs : List Happening} : IsFetch hs → Course polling .refresh hs
  | resolve {key : String} {hs : List Happening} : IsFetch hs → Course polling (.resolve key) hs
  /-- The server refuses to delete the incident. -/
  | refused {key : String} : Course polling (.resolve key) []
  | wait {milliseconds : Nat} {hs : List Happening} :
    (∀ h ∈ hs, h.IsBackground) → Course polling (.wait milliseconds) hs

/-- The happenings of calls made one after the other. -/
def Courses (s : Traffic) : List Call → List Happening → Prop
  | [], hs => hs = []
  | call :: rest, hs => ∃ first later, hs = first ++ later ∧ Course s.feed.isPolling call first ∧
      Courses (s.run first) rest later

variable {f : Feed} {limit : Nat} (w : List Flight)

/-! ## Time that passes -/

theorem fetches_reportFailure {α : Type} {event : ApiError → Event} {outcome : Except ApiError α}
    {log : List (Exchange Link)} (h : (reportFailure event outcome).Runs log ()) :
    fetches log = [] := by
  rcases outcome with cause | a
  · rw [Dialogue.runs_question_iff.1 h]
    rfl
  · rw [(Dialogue.runs_done_iff.1 h).1]
    rfl

theorem passes_landFirst {fl : Flight} {rest : List Flight} (hinFlight : f.inFlight = fl :: rest)
    (hdue : f.now ≤ fl.due) (htick : ∀ time, f.nextTick? = some time → fl.due ≤ time)
    {log : List (Exchange Link)} (hlog : fetches log = []) :
    Traffic.Passes ⟨f, w⟩ [.passed fl.due, .landed 0] log ⟨(f.landFirst fl rest).2, w⟩ := by
  refine ⟨⟨hdue, htick, ?_, trivial, trivial⟩, ?_, hlog.symm⟩
  · simp [Traffic.Timely, Traffic.step, Traffic.ending?, Traffic.prepare, hinFlight]
  · simp [Traffic.step, Traffic.ending?, Traffic.prepare, hinFlight, landFirst]

theorem passes_ticked {time : Nat} (htick : f.nextTick? = some time) (hnow : f.now ≤ time)
    (reply : Reply) :
    Traffic.Passes ⟨f, w⟩ [.ticked reply] [⟨.fetch, reply⟩] ⟨f.ticked reply, w⟩ := by
  refine Traffic.Passes.single ⟨time, htick, hnow⟩ trivial rfl ?_
  rcases hschedule : f.schedule with _ | schedule
  · simp [nextTick?, hschedule] at htick
  · rw [Traffic.issue?, isPolling, hschedule]
    rfl

/-- Time that passes is a sequence of happenings up to the limit. -/
theorem passes_advance {f' : Feed} {log : List (Exchange Link)} (h : f.Punctual)
    (hlimit : f.now ≤ limit) (hruns : (f.advance limit).Runs log f') :
    ∃ hs, (∀ h ∈ hs, h.IsBackground) ∧ Traffic.Passes ⟨f, w⟩ hs log ⟨f', w⟩ ∧ f'.Punctual ∧
      f'.now = limit := by
  -- Moment by moment. `Punctual` is what makes each of them come at its time.
  induction f using advance.induct limit generalizing log with
  | case1 f hmoment =>
    obtain ⟨hhead, htick⟩ := le_of_quiet hmoment
    rw [advance_of_quiet hmoment, Nat.max_eq_right hlimit] at hruns
    obtain ⟨rfl, rfl⟩ := Dialogue.runs_done_iff.1 hruns
    have hpasses : Traffic.Passes ⟨f, w⟩ [.passed limit] [] ⟨{ f with now := limit }, w⟩ :=
      .single hlimit htick rfl rfl
    exact ⟨[.passed limit], List.forall_mem_singleton.2 trivial, hpasses, h.passed hhead htick, rfl⟩
  | case2 f time hmoment ih =>
    obtain ⟨htick, hle⟩ := nextTick?_of_moment hmoment
    have hpunctual := h.ticked htick (le_head_of_tick hmoment)
    rw [advance_of_tick hmoment] at hruns
    obtain ⟨reply, rest, rfl, hticked⟩ := Dialogue.runs_ask_iff.1 hruns
    obtain ⟨hs, hbackground, hpasses, hend⟩ :=
      ih reply (hpunctual reply) (by rwa [now_ticked htick]) hticked
    have hfirst := passes_ticked w htick (h.tick time htick) reply
    exact ⟨.ticked reply :: hs, List.forall_mem_cons.2 ⟨trivial, hbackground⟩,
      hfirst.append hpasses, hend⟩
  | case3 f fl rest hmoment ih =>
    obtain ⟨hinFlight, hle, htick⟩ := moment_of_landing hmoment
    rw [advance_of_landing hmoment] at hruns
    obtain ⟨_, first, later, rfl, hreport, hlanded⟩ := Dialogue.runs_bind_iff.1 hruns
    obtain ⟨hs, hbackground, hpasses, hend⟩ :=
      ih (h.landFirst hinFlight htick) (by rwa [now_landFirst]) hlanded
    have hdue : f.now ≤ fl.due := h.due fl (hinFlight ▸ List.mem_cons_self)
    have hfirst := passes_landFirst w hinFlight hdue htick (fetches_reportFailure hreport)
    exact ⟨.passed fl.due :: .landed 0 :: hs,
      List.forall_mem_cons.2 ⟨trivial, List.forall_mem_cons.2 ⟨trivial, hbackground⟩⟩,
      hfirst.append hpasses, hend⟩

/-- No tick up to the limit is left out. -/
theorem lt_nextTick?_of_advance {f' : Feed} {log : List (Exchange Link)}
    (hruns : (f.advance limit).Runs log f') : ∀ time, f'.nextTick? = some time → limit < time := by
  induction f using advance.induct limit generalizing log with
  | case1 f hmoment =>
    rw [advance_of_quiet hmoment] at hruns
    obtain ⟨-, rfl⟩ := Dialogue.runs_done_iff.1 hruns
    exact lt_nextTick?_of_quiet hmoment
  | case2 f time hmoment ih =>
    rw [advance_of_tick hmoment] at hruns
    obtain ⟨reply, rest, -, hticked⟩ := Dialogue.runs_ask_iff.1 hruns
    exact ih reply hticked
  | case3 f fl rest hmoment ih =>
    rw [advance_of_landing hmoment] at hruns
    obtain ⟨_, first, later, -, -, hlanded⟩ := Dialogue.runs_bind_iff.1 hruns
    exact ih hlanded

/-! ## Operations -/

theorem passes_refresh {log : List (Exchange Link)} {r : Except ApiError Nat × Feed}
    (h : f.Punctual) (hruns : f.refresh.Runs log r) :
    ∃ hs, IsFetch hs ∧ Traffic.Passes ⟨f, w⟩ hs log ⟨r.2, w⟩ ∧ r.2.Punctual := by
  unfold refresh at hruns
  obtain ⟨reply, first, rest, rfl, hask, hruns⟩ := Dialogue.runs_bind_iff.1 hruns
  obtain ⟨f', advanced, nothing, rfl, hadvance, hland⟩ := Dialogue.runs_bind_iff.1 hruns
  obtain ⟨rfl, rfl⟩ := Dialogue.runs_done_iff.1 hland
  rw [Dialogue.runs_question_iff.1 hask]
  obtain ⟨meanwhile, hmeanwhile, hpasses, hpunctual, hnow⟩ :=
    passes_advance (w ++ [⟨f.now + reply.2, reply.1⟩]) h (Nat.le_add_right _ _) hadvance
  have hasked : Traffic.Passes ⟨f, w⟩ [.asked reply] [⟨.fetch, reply⟩]
      ⟨f, w ++ [⟨f.now + reply.2, reply.1⟩]⟩ :=
    .single trivial trivial rfl rfl
  have hanswered : Traffic.Passes ⟨f', w ++ [⟨f.now + reply.2, reply.1⟩]⟩ [.answered w.length] []
      ⟨(f'.land reply.1).2, w⟩ := by
    refine .single ?_ trivial ?_ rfl
    · simp [Traffic.Timely, hnow]
    · simp [Traffic.step, Traffic.ending?, Traffic.prepare, List.eraseIdx_append_of_length_le]
  exact ⟨_, ⟨reply, meanwhile, w.length, hmeanwhile, rfl⟩,
    hasked.append (hpasses.append hanswered), hpunctual.land reply.1⟩

theorem Punctual.scheduled (h : f.Punctual) :
    ({ f with schedule := some ⟨f.now + f.interval, f.interval⟩ } : Feed).Punctual := by
  refine ⟨h.sorted, h.due, fun time htime => ?_⟩
  show f.now ≤ time
  by_cases hperiod : f.interval = 0
  · simp [nextTick?, hperiod] at htime
  · simp only [nextTick?, hperiod, if_false, Option.some.injEq] at htime
    omega

theorem Punctual.stopped (h : f.Punctual) : ({ f with schedule := none } : Feed).Punctual :=
  ⟨h.sorted, h.due, (fun _ htime => nomatch htime)⟩

theorem passes_start {log : List (Exchange Link)} {f' : Feed} (h : f.Punctual)
    (hruns : f.start.Runs log f') :
    ∃ hs, Course f.isPolling .start hs ∧ Traffic.Passes ⟨f, w⟩ hs log ⟨f', w⟩ ∧ f'.Punctual := by
  unfold start at hruns
  obtain ⟨⟨outcome, fetched⟩, first, rest, rfl, hrefresh, hruns⟩ := Dialogue.runs_bind_iff.1 hruns
  obtain ⟨hs, hfetch, hpasses, hpunctual⟩ := passes_refresh w h hrefresh
  obtain ⟨_, reported, rest, rfl, hreport, hruns⟩ := Dialogue.runs_bind_iff.1 hruns
  have hquiet := fetches_reportFailure hreport
  have hpolling : fetched.isPolling = f.isPolling := by
    have hrun := Traffic.isPolling_run ⟨f, w⟩ hs
    rwa [hpasses.run, hfetch.foldl_pollsAfter] at hrun
  rw [hpolling] at hruns
  have hcourse : Course f.isPolling .start (hs ++ if f.isPolling then [] else [.scheduled]) :=
    .start hfetch
  split at hruns
  · next hstarted =>
    obtain ⟨rfl, rfl⟩ := Dialogue.runs_done_iff.1 hruns
    rw [if_pos hstarted, List.append_nil] at hcourse
    exact ⟨hs, hcourse, hpasses.quiet (by rw [List.append_nil, hquiet]), hpunctual⟩
  · next hstopped =>
    obtain ⟨_, started, nothing, rfl, hstarted, hdone⟩ := Dialogue.runs_bind_iff.1 hruns
    obtain ⟨rfl, rfl⟩ := Dialogue.runs_done_iff.1 hdone
    rw [Dialogue.runs_question_iff.1 hstarted]
    rw [if_neg hstopped] at hcourse
    have hscheduled : Traffic.Passes ⟨fetched, w⟩ [.scheduled]
        (reported ++ ([⟨.report (.pollingStarted fetched.interval), ()⟩] ++ []))
        ⟨{ fetched with schedule := some ⟨fetched.now + fetched.interval, fetched.interval⟩ }, w⟩ := by
      refine .single ?_ trivial rfl ?_
      · exact hpolling.trans (Bool.eq_false_iff.2 hstopped)
      · rw [fetches_append, hquiet]
        rfl
    exact ⟨_, hcourse, hpasses.append hscheduled, hpunctual.scheduled⟩

theorem passes_stop {log : List (Exchange Link)} {f' : Feed} (h : f.Punctual)
    (hruns : f.stop.Runs log f') :
    Traffic.Passes ⟨f, w⟩ [.stopped] log ⟨f', w⟩ ∧ f'.Punctual := by
  unfold stop at hruns
  by_cases hpolling : f.isPolling
  · rw [if_pos hpolling] at hruns
    obtain ⟨_, reported, nothing, rfl, hreport, hdone⟩ := Dialogue.runs_bind_iff.1 hruns
    obtain ⟨rfl, rfl⟩ := Dialogue.runs_done_iff.1 hdone
    rw [Dialogue.runs_question_iff.1 hreport]
    exact ⟨.single trivial trivial rfl rfl, h.stopped⟩
  · rw [if_neg hpolling] at hruns
    obtain ⟨rfl, rfl⟩ := Dialogue.runs_done_iff.1 hruns
    exact ⟨.single trivial trivial rfl rfl, h.stopped⟩

theorem passes_resolve {key : String} {log : List (Exchange Link)}
    {r : Except ApiError Unit × Feed} (h : f.Punctual) (hruns : (f.resolve key).Runs log r) :
    ∃ hs, Course f.isPolling (.resolve key) hs ∧ Traffic.Passes ⟨f, w⟩ hs log ⟨r.2, w⟩ ∧
      r.2.Punctual := by
  unfold resolve at hruns
  obtain ⟨outcome, asked, rest, rfl, hdelete, hruns⟩ := Dialogue.runs_bind_iff.1 hruns
  rw [Dialogue.runs_question_iff.1 hdelete]
  rcases outcome with cause | ⟨⟩
  · obtain ⟨rfl, rfl⟩ := Dialogue.runs_done_iff.1 hruns
    exact ⟨[], .refused, .nil rfl, h⟩
  · obtain ⟨_, reported, rest, rfl, hreport, hruns⟩ := Dialogue.runs_bind_iff.1 hruns
    rw [Dialogue.runs_question_iff.1 hreport]
    obtain ⟨⟨outcome, fetched⟩, first, rest, rfl, hrefresh, hruns⟩ := Dialogue.runs_bind_iff.1 hruns
    obtain ⟨hs, hfetch, hpasses, hpunctual⟩ := passes_refresh w h hrefresh
    obtain ⟨_, failed, nothing, rfl, hfailed, hdone⟩ := Dialogue.runs_bind_iff.1 hruns
    obtain ⟨rfl, rfl⟩ := Dialogue.runs_done_iff.1 hdone
    have hdeleted : Traffic.Passes ⟨f, w⟩ [] [⟨.delete key, .ok ()⟩] ⟨f, w⟩ := .nil rfl
    have hreported : Traffic.Passes ⟨f, w⟩ [] [⟨.report (.incidentResolved key), ()⟩] ⟨f, w⟩ :=
      .nil rfl
    have hquiet : fetches (failed ++ []) = [] := by
      rw [List.append_nil, fetches_reportFailure hfailed]
    exact ⟨hs, .resolve hfetch, hdeleted.append (hreported.append (hpasses.quiet hquiet)), hpunctual⟩

/-! ## Runs of operations -/

theorem passes_perform {call : Call} {log : List (Exchange Link)} {f' : Feed} (h : f.Punctual)
    (hruns : (f.perform call).Runs log f') :
    ∃ hs, Course f.isPolling call hs ∧ Traffic.Passes ⟨f, w⟩ hs log ⟨f', w⟩ ∧ f'.Punctual := by
  cases call with
  | start => exact passes_start w h hruns
  | stop => exact ⟨_, .stop, passes_stop w h hruns⟩
  | refresh =>
    obtain ⟨r, hrefresh, rfl⟩ := Dialogue.runs_map_iff.1 hruns
    obtain ⟨hs, hfetch, hpasses⟩ := passes_refresh w h hrefresh
    exact ⟨hs, .refresh hfetch, hpasses⟩
  | resolve key =>
    obtain ⟨r, hresolve, rfl⟩ := Dialogue.runs_map_iff.1 hruns
    exact passes_resolve w h hresolve
  | wait milliseconds =>
    obtain ⟨hs, hbackground, hpasses, hpunctual, -⟩ :=
      passes_advance w h (Nat.le_add_right _ _) hruns
    exact ⟨hs, .wait hbackground, hpasses, hpunctual⟩

theorem passes_performAll {calls : List Call} {log : List (Exchange Link)} {f' : Feed}
    (h : f.Punctual) (hruns : (f.performAll calls).Runs log f') :
    ∃ hs, Courses ⟨f, w⟩ calls hs ∧ Traffic.Passes ⟨f, w⟩ hs log ⟨f', w⟩ ∧ f'.Punctual := by
  induction calls generalizing f log with
  | nil =>
    obtain ⟨rfl, rfl⟩ := Dialogue.runs_done_iff.1 hruns
    exact ⟨[], rfl, .nil rfl, h⟩
  | cons call rest ih =>
    obtain ⟨next, first, later, rfl, hperform, hrest⟩ := Dialogue.runs_bind_iff.1 hruns
    obtain ⟨hs, hcourse, hpasses, hpunctual⟩ := passes_perform w h hperform
    obtain ⟨hs', hcourses, hpasses', hpunctual'⟩ := ih hpunctual hrest
    have hrun := hpasses.run
    exact ⟨hs ++ hs', ⟨hs, hs', rfl, hcourse, hrun ▸ hcourses⟩, hpasses.append hpasses', hpunctual'⟩

theorem follows_performAll {calls : List Call} {log : List (Exchange Link)} {f' : Feed}
    (h : f.Punctual) (hruns : (f.performAll calls).Runs log f') :
    Traffic.Follows ⟨f, w⟩ log ⟨f', w⟩ ∧ f'.Punctual := by
  obtain ⟨hs, -, hpasses, hpunctual⟩ := passes_performAll w h hruns
  exact ⟨hpasses.follows, hpunctual⟩

end Feed

/-! ## The list of a feed -/

namespace Traffic

theorem publications_idle_run (interval : Nat) (hs : List Happening) :
    ((idle interval).run hs).feed.publications = ((idle interval).lists hs).length := by
  rw [publications_run]
  exact Nat.zero_add _

/-- A happening that ends no fetch, or one that gave no list, changes neither the list nor the
number of publications; one that ends a fetch with a list publishes it once. -/
theorem step_of_listing? (s : Traffic) (h : Happening) :
    ((s.ending? h).bind listing? = none →
        (s.step h).feed.incidents = s.feed.incidents ∧
          (s.step h).feed.publications = s.feed.publications) ∧
      ∀ entries, (s.ending? h).bind listing? = some entries →
        (s.step h).feed.incidents = entries ∧
          (s.step h).feed.publications = s.feed.publications + 1 := by
  rcases he : s.ending? h with _ | outcome
  · exact ⟨fun _ => step_of_no_ending he, fun entries hl => by cases hl⟩
  · obtain ⟨hincidents, hpublications⟩ := step_of_ending he
    rw [Option.bind_some]
    refine ⟨fun hl => ?_, fun entries hl => ?_⟩
    · rw [hl] at hincidents hpublications
      exact ⟨hincidents, hpublications⟩
    · rw [hl] at hincidents hpublications
      exact ⟨hincidents, hpublications⟩

/-- In whatever order fetches are issued and end, the list is the one that the last of them to end
with a list gave, each of these was published once, and nothing else touches the list. Runs of
operations, whatever the surroundings answer, are sequences of such happenings. -/
theorem last_list_wins (interval : Nat) :
    (∀ hs,
        ((idle interval).run hs).feed.incidents = ((idle interval).lists hs).getLast?.getD [] ∧
        ((idle interval).run hs).feed.publications = ((idle interval).lists hs).length ∧
        ((idle interval).endings hs ++ ((idle interval).run hs).pending).Perm
          (((idle interval).issued hs).map Prod.fst)) ∧
      (∀ hs h,
        ((((idle interval).run hs).ending? h).bind listing? = none →
          (((idle interval).run hs).step h).feed.incidents =
              ((idle interval).run hs).feed.incidents ∧
            (((idle interval).run hs).step h).feed.publications =
              ((idle interval).run hs).feed.publications) ∧
        ∀ entries, (((idle interval).run hs).ending? h).bind listing? = some entries →
          (((idle interval).run hs).step h).feed.incidents = entries ∧
            (((idle interval).run hs).step h).feed.publications =
              ((idle interval).run hs).feed.publications + 1) ∧
      ∀ calls log f, ((Feed.idle interval).performAll calls).Runs log f →
        ∃ hs, (idle interval).Timed hs ∧ (idle interval).run hs = ⟨f, []⟩ ∧
          (idle interval).issued hs = fetches log := by
  refine ⟨?_, ?_, ?_⟩
  · intro hs
    have hpublications := publications_idle_run interval hs
    have hended := endings_perm (idle interval) hs
    exact ⟨incidents_run (idle interval) hs, hpublications, hended⟩
  · intro hs h
    exact step_of_listing? ((idle interval).run hs) h
  · intro calls log f hruns
    have hpunctual := Feed.punctual_idle interval
    obtain ⟨hfollows, -⟩ := Feed.follows_performAll [] hpunctual hruns
    exact hfollows

end Traffic

end AlertConsole
