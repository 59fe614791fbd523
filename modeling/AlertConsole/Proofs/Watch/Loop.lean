import AlertConsole.Console.Watch
import AlertConsole.Proofs.Watch.Effects
import AlertConsole.Proofs.Watch.Publications
import AlertConsole.Proofs.Watch.Restart

/-!
# One live feed

Every turn of a watch, whatever the host answers, is a part of a vigil: it has the same effects in
the same order, and deals with what it is there for (`exists_plays_perform`). So what holds of every
order of occurrences holds of a watch, and it has one live feed across changes of the session
(`one_live_feed`).
-/

namespace AlertConsole

open Console (Format Watch)

/-! ## The loop -/

namespace Console.Watch

/-- What a turn deals with. After the loop has settled, no list is pending, nor is any session that
was published before. A tick goes on to the next fetch of the schedule, and issues it. -/
def Deals (w : Watch) (s : SessionStore) (turn : Turn) (w' : Watch) : Prop :=
  match turn with
  | .settle => w'.listsSeen = w'.feed.publications ∧ w'.sessionsSeen = s.publications
  | .tick => ∀ time, w.feed.nextTick? = some time →
    w'.feed.now = time ∧ ∀ next, w'.feed.nextTick? = some next → time < next

/-- Turns taken one after the other. -/
def performAll (config : Config) (format : Format) (w : Watch) : List Turn → Console Watch
  | [] => pure w
  | turn :: rest => do (← w.perform config format turn).performAll config format rest

end Console.Watch

namespace Vigil

variable {config : Config} {format : Format} {v : Vigil} {os os' : List Occurrence}
  {log log' : List (Exchange Host)} {s s' : SessionStore} {w w' : Watch}

/-! ## Runs of a watch -/

/-- The vigil is where the watch is. -/
structure Stands (v : Vigil) (w : Watch) (s : SessionStore) : Prop where
  traffic : v.traffic = ⟨w.feed, []⟩
  store : v.store = s
  phase : v.phase = .waiting
  lists : v.listsSeen = w.listsSeen
  sessions : v.sessionsSeen = w.sessionsSeen
  punctual : w.feed.Punctual
  /-- Whatever the schedule has issued was sent. -/
  sent : v.outstanding = 0

/-- What a start without a schedule does to its feed: it asks for a list, and makes a schedule when
it gets the reply. -/
structure Starting (t : Traffic) (asked : List (Exchange Feed.Link)) (reply : Reply)
    (meanwhile : List Happening) (f' : Feed) : Prop where
  background : ∀ h ∈ meanwhile, h.IsBackground
  onTime : (t.step (.asked reply)).OnTime meanwhile
  ahead : ∀ fl ∈ (t.step (.asked reply)).awaited,
    ((t.step (.asked reply)).run meanwhile).feed.now ≤ fl.due
  timely : ((t.step (.asked reply)).run meanwhile).Timely (.answered 0)
  stopped : ((t.step (.asked reply)).run meanwhile).feed.isPolling = false
  last : ((t.step (.asked reply)).run meanwhile).run [.answered 0, .scheduled] = ⟨f', []⟩
  fetched : (fetches asked).length = ((t.step (.asked reply)).issued meanwhile).length + 1

theorem exists_starting {f f' : Feed} {asked : List (Exchange Feed.Link)}
    (hstopped : f.isPolling = false) (hpunctual : f.Punctual) (hruns : f.start.Runs asked f') :
    f'.Punctual ∧ ∃ reply meanwhile, Starting ⟨f, []⟩ asked reply meanwhile f' := by
  obtain ⟨hs, hcourse, hpasses, hpunctual'⟩ := Feed.passes_start [] hpunctual hruns
  rw [hstopped] at hcourse
  obtain ⟨⟨reply, meanwhile, index, hback, rfl⟩⟩ := hcourse
  simp only [Bool.false_eq_true, if_false, List.cons_append, List.append_assoc,
    List.nil_append] at hpasses
  obtain ⟨hontimes, hlast, hissued⟩ := hpasses
  obtain ⟨honTime, htimely, -⟩ := (Traffic.onTime_append _ _ _).1 hontimes.2.2
  have hawaited := Traffic.awaited_run_of_background
    (s := Traffic.step ⟨f, []⟩ (.asked reply)) hback
  -- Only one fetch is awaited, so it is the one that is answered.
  obtain rfl : index = 0 := by
    rw [Traffic.Timely, hawaited] at htimely
    cases index with
    | zero => rfl
    | succ index => cases htimely
  refine ⟨hpunctual', reply, meanwhile, hback, honTime, ?_, htimely, ?_, ?_, ?_⟩
  · intro fl hfl
    obtain rfl := List.mem_singleton.1 hfl
    rw [Traffic.Timely, hawaited] at htimely
    exact (Option.some.inj htimely).ge
  · rw [Traffic.isPolling_run_of_background hback, Traffic.isPolling_step, hstopped]
    rfl
  · rw [Traffic.run_cons, Traffic.run_append] at hlast
    exact hlast
  · rw [← hissued, Traffic.issued, Traffic.issued_append]
    simp [Traffic.issue?, Traffic.issued]

/-- A start without a schedule, whatever it finds in the file and gets from the server. -/
theorem exists_plays_start {f f' : Feed} {asked : List (Exchange Feed.Link)}
    (format : Format) (htraffic : v.traffic = ⟨f, []⟩) (hphase : v.phase = .stopped)
    (hsent : v.outstanding = 0) (hstopped : f.isPolling = false) (hpunctual : f.Punctual)
    (hruns : f.start.Runs asked f') {contents : List FileContent}
    (hlength : contents.length = (fetches asked).length)
    (heffects : Effect.ofLog log = Effect.ofFetches config v.store contents) :
    ∃ os, Plays config format v os log ∧ f'.Punctual ∧
      v.run os = { v with
        traffic := ⟨f', []⟩, store := contents.foldl SessionStore.looked v.store
        phase := .waiting } := by
  obtain ⟨hpunctual', reply, meanwhile, hstarting⟩ := exists_starting hstopped hpunctual hruns
  rw [← htraffic] at hstarting
  rw [hstarting.fetched] at hlength
  obtain ⟨content, contents, rfl⟩ := List.exists_cons_of_length_eq_add_one hlength
  obtain ⟨os, hvalid, hrun, hbackground⟩ :=
    exists_background (v := (v.step (.synced content)).step (.asked reply)) config format
      hstarting.background hstarting.onTime trivial hstarting.ahead hsent (Nat.succ.inj hlength)
  have hawaiting : (((v.step (.synced content)).step (.asked reply)).run os).traffic =
      (v.traffic.step (.asked reply)).run meanwhile := by
    rw [hrun]
    rfl
  refine ⟨.synced content :: .asked reply :: (os ++ [.answered]), ⟨⟨hphase, rfl, ?_⟩, ?_⟩,
    hpunctual', ?_⟩
  · refine valid_append_iff.2 ⟨hvalid, ⟨?_, ?_⟩, trivial⟩
    · rw [hrun]
      rfl
    · rw [hawaiting]
      exact hstarting.timely
  · rw [heffects]
    simp only [collect, collect_append, effects_synced, effects_asked, effects_answered,
      hbackground, Effect.ofFetches, List.append_nil]
    rfl
  · have hanswer : ∀ u : Vigil, u.step .answered =
        { u with traffic := u.traffic.run (u.happenings .answered), phase := .waiting } :=
      fun _ => rfl
    have hhappenings : (((v.step (.synced content)).step (.asked reply)).run os).happenings
        .answered = [.answered 0, .scheduled] := by
      rw [happenings, hawaiting, hstarting.stopped]
      rfl
    rw [run_cons, run_cons, run_append, run_cons, run_nil, hanswer, hhappenings, hawaiting,
      hstarting.last, hrun]
    rfl

/-! ## Turns of a watch -/

/-- The first start. -/
theorem exists_plays_begun (format : Format) (h : (Watch.start config s).Runs log (w, s')) :
    ∃ os, Plays config format (begun config.pollInterval s) os log ∧
      ((begun config.pollInterval s).run os).Stands w s' := by
  obtain ⟨_, store, _, _, rfl, hget, hrest⟩ := Console.runs_bind_iff.1 h
  obtain ⟨rfl, rfl, rfl⟩ := Console.runs_get_iff.1 hget
  obtain ⟨f, _, feeding, _, rfl, hfeed, hpure⟩ := Console.runs_bind_iff.1 hrest
  obtain ⟨rfl, rfl, rfl⟩ := Console.runs_pure_iff.1 hpure
  obtain ⟨asked, hruns, hrelayed⟩ := Console.runs_withFeed_iff.1 hfeed
  obtain ⟨contents, hlength, heffects, rfl⟩ :=
    Effect.exists_fetching hrelayed (hruns.never (Feed.never_start _))
  obtain ⟨os, hplays, hpunctual, hrun⟩ :=
    exists_plays_start (v := begun config.pollInterval store) format rfl rfl rfl rfl
      (Feed.punctual_idle _) hruns hlength heffects
  refine ⟨os, ?_, ?_⟩
  · rwa [List.nil_append, List.append_nil]
  · rw [hrun]
    exact ⟨rfl, rfl, rfl, rfl, rfl, hpunctual, rfl⟩

theorem exists_plays_showList (hstands : v.Stands w s)
    (h : (w.showList config format s).Runs log (w', s')) :
    (∃ os, Plays config format v os log ∧ (v.run os).Stands w' s') ∧
      w'.listsSeen = w'.feed.publications ∧ w'.sessionsSeen = w.sessionsSeen := by
  unfold Watch.showList at h
  split at h
  · next hseen =>
    obtain ⟨rfl, rfl, rfl⟩ := Console.runs_pure_iff.1 h
    exact ⟨⟨[], .nil rfl, hstands⟩, hseen.symm, rfl⟩
  · next hnew =>
    obtain ⟨⟨⟩, _, _, _, rfl, hshow, hrest⟩ := Console.runs_bind_iff.1 h
    obtain ⟨hprint, rfl⟩ := Console.runs_host_iff.1 hshow
    obtain rfl := Dialogue.runs_question_iff.1 hprint
    obtain ⟨⟨⟩, _, _, _, rfl, hreport, hpure⟩ := Console.runs_bind_iff.1 hrest
    obtain ⟨rfl, rfl⟩ := Console.runs_report_iff.1 hreport
    obtain ⟨rfl, rfl, rfl⟩ := Console.runs_pure_iff.1 hpure
    have hadmits : v.Admits .shown := by
      refine ⟨hstands.phase, ?_⟩
      rw [hstands.traffic, hstands.lists]
      exact hnew
    refine ⟨⟨[.shown], ⟨⟨hadmits, trivial⟩, ?_⟩, ?_⟩, rfl, rfl⟩
    · simp only [collect, effects_shown, hstands.traffic]
      rfl
    · obtain ⟨htraffic, hstore, hphase, -, hsessions, hpunctual, hsent⟩ := hstands
      exact ⟨htraffic, hstore, hphase, by simp [step, htraffic], hsessions, hpunctual, hsent⟩

theorem exists_plays_followSession (format : Format) (hstands : v.Stands w s)
    (h : (w.followSession config s).Runs log (w', s')) :
    (∃ os, Plays config format v os log ∧ (v.run os).Stands w' s') ∧
      w'.sessionsSeen = s.publications := by
  obtain ⟨_, _, _, _, rfl, hget, hrest⟩ := Console.runs_bind_iff.1 h
  obtain ⟨rfl, rfl, rfl⟩ := Console.runs_get_iff.1 hget
  split at hrest
  · next hseen =>
    obtain ⟨rfl, rfl, rfl⟩ := Console.runs_pure_iff.1 hrest
    exact ⟨⟨[], .nil rfl, hstands⟩, hseen.symm⟩
  · next hnew =>
    obtain ⟨⟨⟩, _, _, _, rfl, hreport, hrestart⟩ := Console.runs_bind_iff.1 hrest
    obtain ⟨rfl, rfl⟩ := Console.runs_report_iff.1 hreport
    obtain ⟨f', _, feeding, _, rfl, hfeed, hpure⟩ := Console.runs_bind_iff.1 hrestart
    obtain ⟨rfl, rfl, rfl⟩ := Console.runs_pure_iff.1 hpure
    obtain ⟨asked, hruns, hrelayed⟩ := Console.runs_withFeed_iff.1 hfeed
    have hnever := hruns.never ((Feed.never_stop _).bind Feed.never_start)
    obtain ⟨contents, hlength, heffects, rfl⟩ := Effect.exists_fetching hrelayed hnever
    obtain ⟨f, stopping, starting, rfl, hstop, hstart⟩ := Dialogue.runs_bind_iff.1 hruns
    obtain ⟨hpasses, hpunctual⟩ := Feed.passes_stop [] hstands.punctual hstop
    have hquiet : fetches stopping = [] := hpasses.issued.symm
    rw [fetches_append, hquiet, List.nil_append] at hlength
    have hadmits : v.Admits .handled := by
      refine ⟨hstands.phase, ?_⟩
      rw [hstands.store, hstands.sessions]
      exact hnew
    have htraffic : (v.step .handled).traffic = ⟨f, []⟩ := by
      rw [traffic_step, hstands.traffic]
      exact hpasses.run
    have hstopped : f.isPolling = false := by
      have hpolling := Traffic.isPolling_run ⟨w.feed, []⟩ [.stopped]
      rwa [hpasses.run] at hpolling
    have hsent : (v.step .handled).outstanding = 0 := hstands.sent
    obtain ⟨rfl⟩ := hstands.store
    obtain ⟨os, hplays, hpunctual', hrun⟩ := exists_plays_start (v := v.step .handled) format
      htraffic rfl hsent hstopped hpunctual hstart hlength heffects
    have hhandled : Plays config format v [.handled] [Console.noted .sessionChanged] :=
      ⟨⟨hadmits, trivial⟩, rfl⟩
    refine ⟨⟨[.handled] ++ os, ?_, ?_⟩, rfl⟩
    · rw [List.nil_append, List.append_nil]
      exact hhandled.append hplays
    · rw [run_append, run_cons, run_nil, hrun]
      exact ⟨rfl, rfl, rfl, hstands.lists, rfl, hpunctual', hsent⟩

theorem exists_plays_tick (format : Format) (hstands : v.Stands w s)
    (h : (w.tick config s).Runs log (w', s')) :
    (∃ os, Plays config format v os log ∧ (v.run os).Stands w' s') ∧
      ∀ time, w.feed.nextTick? = some time →
        w'.feed.now = time ∧ ∀ next, w'.feed.nextTick? = some next → time < next := by
  cases htick : w.feed.nextTick? with
  | none =>
    simp only [Watch.tick, htick] at h
    obtain ⟨rfl, rfl, rfl⟩ := Console.runs_pure_iff.1 h
    exact ⟨⟨[], .nil rfl, hstands⟩, nofun⟩
  | some time =>
    simp only [Watch.tick, htick] at h
    obtain ⟨f', _, feeding, _, rfl, hfeed, hpure⟩ := Console.runs_bind_iff.1 h
    obtain ⟨rfl, rfl, rfl⟩ := Console.runs_pure_iff.1 hpure
    obtain ⟨asked, hruns, hrelayed⟩ := Console.runs_withFeed_iff.1 hfeed
    obtain ⟨contents, hlength, heffects, rfl⟩ :=
      Effect.exists_fetching hrelayed (hruns.never (Feed.never_advance _ _))
    obtain ⟨hs, hback, hpasses, hpunctual, hnow⟩ := Feed.passes_advance [] hstands.punctual
      (hstands.punctual.tick time htick) hruns
    refine ⟨?_, fun t ht => ?_⟩
    · obtain ⟨honTime, hlast, hissued⟩ := hpasses
      obtain ⟨rfl⟩ := hstands.store
      rw [← hissued, ← hstands.traffic] at hlength
      rw [← hstands.traffic] at honTime hlast
      obtain ⟨os, hvalid, hrun, hbackground⟩ := exists_background config format hback honTime
        (by rw [hstands.phase]; trivial) (by rw [hstands.traffic]; exact nofun) hstands.sent
        hlength
      refine ⟨os, ⟨hvalid, ?_⟩, ?_⟩
      · rw [List.append_nil, heffects, hbackground]
      · rw [hrun, hlast]
        exact ⟨rfl, rfl, hstands.phase, hstands.lists, hstands.sessions, hpunctual, hstands.sent⟩
    · cases ht
      exact ⟨hnow, Feed.lt_nextTick?_of_advance hruns⟩

/-- A turn is a part of a vigil, and deals with what it is there for. -/
theorem exists_plays_perform {turn : Watch.Turn} (hstands : v.Stands w s)
    (h : (w.perform config format turn s).Runs log (w', s')) :
    (∃ os, Plays config format v os log ∧ (v.run os).Stands w' s') ∧ w.Deals s turn w' := by
  cases turn with
  | tick => exact exists_plays_tick format hstands h
  | settle =>
    obtain ⟨followed, _, _, _, rfl, hfollow, hshow⟩ := Console.runs_bind_iff.1 h
    obtain ⟨⟨os, hplays, hfollowed⟩, hsessions⟩ := exists_plays_followSession format hstands hfollow
    obtain ⟨⟨os', hplays', hshown⟩, hlists, hkept⟩ := exists_plays_showList hfollowed hshow
    refine ⟨⟨os ++ os', hplays.append hplays', ?_⟩, hlists, hkept.trans hsessions⟩
    rwa [run_append]

theorem nextTurn_eq_tick_iff (hstands : v.Stands w s) :
    w.nextTurn s = .tick ↔
      v.traffic.feed.publications = v.listsSeen ∧ v.store.publications = v.sessionsSeen := by
  rw [hstands.traffic, hstands.store, hstands.lists, hstands.sessions, Watch.nextTurn]
  have hpending : w.isPending s = true ↔
      ¬(w.feed.publications = w.listsSeen ∧ s.publications = w.sessionsSeen) := by
    simp [Watch.isPending, ← not_and_or]
  split
  · next h => exact iff_of_false nofun (hpending.1 h)
  · next h => exact iff_of_true rfl (not_not.1 (mt hpending.2 h))

theorem exists_plays_performAll {turns : List Watch.Turn} (hstands : v.Stands w s)
    (h : (w.performAll config format turns s).Runs log (w', s')) :
    ∃ os, Plays config format v os log ∧ (v.run os).Stands w' s' := by
  induction turns generalizing v w s log with
  | nil =>
    obtain ⟨rfl, rfl, rfl⟩ := Console.runs_pure_iff.1 h
    exact ⟨[], .nil rfl, hstands⟩
  | cons turn rest ih =>
    obtain ⟨mid, _, _, _, rfl, hturn, hrest⟩ := Console.runs_bind_iff.1 h
    obtain ⟨⟨os, hplays, hmid⟩, -⟩ := exists_plays_perform hstands hturn
    obtain ⟨os', hplays', hlast⟩ := ih hmid hrest
    refine ⟨os ++ os', hplays.append hplays', ?_⟩
    rwa [run_append]

/-- A run of a watch is a vigil, whatever the host answers. -/
theorem exists_plays {turns : List Watch.Turn}
    (h : ((Watch.start config >>= fun w => w.performAll config format turns) s).Runs log (w, s')) :
    ∃ os, Plays config format (begun config.pollInterval s) os log ∧
      ((begun config.pollInterval s).run os).Stands w s' := by
  obtain ⟨started, _, _, _, rfl, hstart, hrest⟩ := Console.runs_bind_iff.1 h
  obtain ⟨os, hplays, hstarted⟩ := exists_plays_begun format hstart
  obtain ⟨os', hplays', hlast⟩ := exists_plays_performAll hstarted hrest
  refine ⟨os ++ os', hplays.append hplays', ?_⟩
  rwa [run_append]

/-! ## One live feed -/

/-- How a watch goes that begins with `v`, in whatever order things occur. -/
structure OneLiveFeed (config : Config) (format : Format) (v : Vigil) : Prop where
  /-- While the loop waits there is one schedule, and every other one that was made was given up. A
  schedule of period 0 counts as one, although it never ticks. -/
  polling : ∀ os, v.Valid os → (v.run os).phase = .waiting →
    (∃ next, (v.run os).traffic.feed.schedule = some ⟨next, config.pollInterval⟩) ∧
      (v.happened os).countP Happening.makes = (v.happened os).countP Happening.givesUp + 1
  /-- What comes between the handling of a session and the next reply is a restart. -/
  restarting : ∀ before during, .answered ∉ during →
    v.Valid (before ++ .handled :: (during ++ [.answered])) →
      ∃ r : Restart, during = r.occurrences ∧
        Conducted config config.pollInterval (v.run before) r
  /-- A restart under way can be brought to its end, whatever the file and the server say. -/
  resuming : ∀ before during, .answered ∉ during → v.Valid (before ++ .handled :: during) →
    ∀ content reply, ∃ way : List Occurrence, (∀ o ∈ way, o.IsWay content reply) ∧
      v.Valid (before ++ .handled :: (during ++ way ++ [.answered]))
  /-- From the reply on the schedule issues a fetch once a period, until the next restart. -/
  ticking : 0 < config.pollInterval → ∀ before after, .handled ∉ after →
    v.Valid (before ++ .answered :: after) →
      ∃ k, (v.run (before ++ [.answered])).traffic.ticks
          ((v.run (before ++ [.answered])).happened after) =
        (List.range k).map fun j =>
          (v.run before).traffic.feed.now + (j + 1) * config.pollInterval
  /-- The schedules send one request for each tick, sooner or later, and no fetch lands before. -/
  requesting : ∀ os, v.Valid os →
    os.countP Occurrence.isRequested + (v.run os).outstanding = os.countP Occurrence.isTick ∧
      (v.run os).outstanding ≤ (v.run os).traffic.feed.inFlight.length
  /-- A list that is shown is the last one that was published. -/
  latest : ∀ before, v.Valid (before ++ [.shown]) →
    ∃ entries, (v.traffic.lists (v.happened before)).getLast? = some entries ∧
      (v.run before).showings .shown =
        [((v.traffic.lists (v.happened before)).length, entries)]
  /-- Later publications are shown later, and none is shown twice. -/
  ordered : ∀ os, v.Valid os → (v.collect showings os).Pairwise (·.1 < ·.1)
  /-- A session that a request finds is published if it is new, and can then be handled. -/
  publishing : ∀ before content session path, v.Valid before → (v.run before).phase = .waiting →
    (v.run before).store.file = some path → SessionStore.sessionOf? content = some session →
      session ≠ (v.run before).store.held →
        ((v.run before).step (.looked content)).store.held = session ∧
          ((v.run before).step (.looked content)).Admits .handled
  /-- Once the file stays as it is, few restarts follow. -/
  settling : ∀ before after content, v.Valid (before ++ after) →
    after.countP Occurrence.isHandled ≤ 2 * after.countP (Occurrence.isStale content) + 2
  /-- A watch begins like this, whatever the host answers. -/
  beginning : ∀ log w s, (Watch.start config v.store).Runs log (w, s) →
    ∃ os, Plays config format v os log ∧ (v.run os).Stands w s
  /-- So does every turn of it go on, and deals with what it is there for. -/
  turning : ∀ before turn log w s w' s', v.Valid before → (v.run before).Stands w s →
    (w.perform config format turn s).Runs log (w', s') →
      (∃ os, Plays config format (v.run before) os log ∧ ((v.run before).run os).Stands w' s') ∧
        w.Deals s turn w'
  /-- The loop takes such turns, and waits for a tick only when nothing is pending. -/
  looping : ∀ before w s, v.Valid before → (v.run before).Stands w s →
    w.turn config format s = w.perform config format (w.nextTurn s) s ∧
      (w.nextTurn s = .tick ↔
        (v.run before).traffic.feed.publications = (v.run before).listsSeen ∧
          (v.run before).store.publications = (v.run before).sessionsSeen)
  /-- Every run of a watch goes like this, whatever the host answers. -/
  running : ∀ turns log w s,
    ((Watch.start config >>= fun w => w.performAll config format turns) v.store).Runs log (w, s) →
      ∃ os, Plays config format v os log ∧ (v.run os).Stands w s

theorem one_live_feed (config : Config) (format : Format) (s : SessionStore) :
    OneLiveFeed config format (begun config.pollInterval s) where
  polling os hvalid hphase := one_schedule_of_waiting hvalid hphase
  restarting before during hanswered hvalid := by
    obtain ⟨hbefore, hrest⟩ := valid_append_iff.1 hvalid
    obtain ⟨hhandled, hduring⟩ := hrest
    have hsound := (sound_begun config.pollInterval s).run hbefore
    obtain ⟨hvduring, hend, -⟩ := valid_append_iff.1 hduring
    obtain ⟨r, rfl, hbeside⟩ := exists_restart (phase_handled _) hvduring hend.1 hanswered
    exact ⟨r, rfl, conducted_of_valid config hsound ⟨hhandled, hduring⟩ hbeside⟩
  resuming before during hanswered hvalid content reply := by
    obtain ⟨hbefore, hhandled, hduring⟩ := valid_append_iff.1 hvalid
    have hsound := ((sound_begun config.pollInterval s).run hbefore).step hhandled
    have hphase := phase_ne_waiting (by simp) hduring hanswered
    obtain ⟨way, hway, hrest⟩ := exists_way (hsound.run hduring) hphase content reply
    refine ⟨way, hway, valid_append_iff.2 ⟨hbefore, hhandled, ?_⟩⟩
    rw [List.append_assoc]
    exact valid_append_iff.2 ⟨hduring, hrest⟩
  ticking hp before after hhandled hvalid := by
    obtain ⟨hbefore, hafter⟩ := valid_append_iff.1 hvalid
    have hsound := (sound_begun config.pollInterval s).run hbefore
    rw [run_append]
    exact ticks_answered hp hsound hafter hhandled
  requesting os hvalid :=
    ⟨(requested_add_outstanding hvalid).trans (Nat.zero_add _),
      ((sound_begun config.pollInterval s).run hvalid).inFlight⟩
  latest before hvalid := showings_of_admits hvalid
  ordered os hvalid := (showings_lt (sound_begun _ s) hvalid).2
  publishing before content session path hvalid hphase hfile hsession hnew :=
    admits_handled ((sound_begun _ s).run hvalid) hphase hfile hsession hnew
  settling before after content hvalid := restarts_le (valid_append_iff.1 hvalid).2 content
  beginning log w s' hruns := exists_plays_begun format hruns
  turning before turn log w s w' s' _ hstands hruns := exists_plays_perform hstands hruns
  looping before w s' _ hstands := ⟨rfl, nextTurn_eq_tick_iff hstands⟩
  running turns log w s' hruns := exists_plays hruns

end Vigil

end AlertConsole
