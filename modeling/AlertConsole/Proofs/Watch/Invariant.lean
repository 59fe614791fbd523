import AlertConsole.Proofs.Watch.Vigil

/-!
# One schedule

The feed of a watch polls exactly while the loop waits, and awaits a fetch of its own exactly while
it starts (`Sound.run`). Every schedule is made where there is none, so all but one were given up by
the time the loop waits (`one_schedule_of_waiting`).
-/

namespace AlertConsole

/-! ## Happenings -/

namespace Traffic

variable {s : Traffic} {h : Happening} {hs : List Happening} {p : Nat}

theorem awaited_step_of_background (hback : h.IsBackground) : (s.step h).awaited = s.awaited := by
  have hprepare : (s.prepare h).awaited = s.awaited := by
    cases h with
    | passed time => rfl
    | ticked reply => rfl
    | landed index => rfl
    | _ => exact hback.elim
  unfold step
  split
  · exact hprepare
  · exact hprepare

theorem awaited_run_of_background (hback : ∀ h ∈ hs, h.IsBackground) :
    (s.run hs).awaited = s.awaited := by
  induction hs generalizing s with
  | nil => rfl
  | cons h hs ih =>
    obtain ⟨hh, hhs⟩ := List.forall_mem_cons.1 hback
    rw [run_cons, ih hhs, awaited_step_of_background hh]

theorem inFlight_step (s : Traffic) (h : Happening) :
    (s.step h).feed.inFlight = (s.prepare h).feed.inFlight := by
  unfold step
  split
  · rfl
  · exact Feed.inFlight_land _ _

theorem isPolling_run_of_background (hback : ∀ h ∈ hs, h.IsBackground) :
    (s.run hs).feed.isPolling = s.feed.isPolling := by
  rw [isPolling_run, foldl_pollsAfter_of_background hback]

theorem now_le_run (h : s.OnTime hs) : s.feed.now ≤ (s.run hs).feed.now := by
  induction hs generalizing s with
  | nil => exact Nat.le_refl _
  | cons first hs ih =>
    obtain ⟨htimely, -, hrest⟩ := h
    refine Nat.le_trans ?_ (ih hrest)
    rw [(s.feed_step first).2.1]
    cases first with
    | passed time => exact htimely
    | ticked reply =>
      obtain ⟨time, htick, hnow⟩ := htimely
      exact hnow.trans_eq (Feed.now_ticked htick reply).symm
    | _ => exact Nat.le_refl _

/-- Any schedule that there is has the period `p`, and so have those to come. -/
def Paced (s : Traffic) (p : Nat) : Prop :=
  s.feed.interval = p ∧ ∀ schedule, s.feed.schedule = some schedule → schedule.period = p

theorem Paced.step (hs : s.Paced p) (h : Happening) : (s.step h).Paced p := by
  obtain ⟨hinterval, hperiod⟩ := hs
  obtain ⟨hschedule, -, hkept⟩ := s.feed_step h
  rw [Paced, hschedule, hkept]
  cases h with
  | ticked reply =>
    refine ⟨(s.feed.interval_ticked reply).trans hinterval, ?_⟩
    cases hnow : s.feed.schedule with
    | none => simp [prepare, Feed.ticked, hnow]
    | some schedule => simp [prepare, Feed.ticked, hnow, hperiod schedule hnow]
  | scheduled => simp [prepare, hinterval]
  | stopped => simp [prepare, hinterval]
  | _ => exact ⟨hinterval, hperiod⟩

theorem Paced.run (hpaced : s.Paced p) (hs : List Happening) : (s.run hs).Paced p := by
  induction hs generalizing s with
  | nil => exact hpaced
  | cons h hs ih => exact ih (hpaced.step h)

end Traffic

/-! ## The invariant of the loop -/

namespace Vigil

/-- The feed has a schedule exactly while the loop waits, and a fetch to await exactly while it
starts. -/
structure Sound (p : Nat) (v : Vigil) : Prop where
  paced : v.traffic.Paced p
  polling : v.traffic.feed.isPolling = decide (v.phase = .waiting)
  awaited : v.traffic.awaited.length = if v.phase = .fetching then 1 else 0
  ahead : ∀ fl ∈ v.traffic.awaited, v.traffic.feed.now ≤ fl.due
  lists : v.listsSeen ≤ v.traffic.feed.publications
  sessions : v.sessionsSeen ≤ v.store.publications
  /-- Without a session file there is nothing to handle. -/
  memory : v.store.file = none → v.store.publications = v.sessionsSeen
  /-- A fetch of the schedule is in flight until its request was sent. -/
  inFlight : v.outstanding ≤ v.traffic.feed.inFlight.length

variable {p : Nat} {v : Vigil} {o : Occurrence} {os : List Occurrence}

theorem sound_begun (p : Nat) (store : SessionStore) : (begun p store).Sound p :=
  ⟨⟨rfl, nofun⟩, rfl, rfl, nofun, Nat.le_refl 0, Nat.le_refl _, fun _ => rfl,
    Nat.le_refl 0⟩

theorem Sound.not_polling (h : v.Sound p) (hphase : v.phase ≠ .waiting) :
    v.traffic.feed.isPolling = false := by
  simp [h.polling, hphase]

theorem Sound.awaited_nil (h : v.Sound p) (hphase : v.phase ≠ .fetching) :
    v.traffic.awaited = [] := by
  simpa [hphase] using h.awaited

theorem Sound.polling_step (h : v.Sound p) (hadmits : v.Admits o) :
    (v.step o).traffic.feed.isPolling = decide ((v.step o).phase = .waiting) := by
  have hpolling := h.polling
  rw [traffic_step, Traffic.isPolling_run]
  cases o with
  | background first =>
    rw [foldl_pollsAfter_of_background (background_of_side hadmits trivial), hpolling]
    rfl
  | looked content => exact hpolling
  | requested => exact hpolling
  | synced content =>
    rw [Admits] at hadmits
    simp [hadmits] at hpolling
    simp [happenings, hpolling]
  | asked reply =>
    rw [Admits] at hadmits
    simp [hadmits] at hpolling
    simp [happenings, Traffic.pollsAfter, hpolling]
  | answered =>
    simp [hadmits.1] at hpolling
    simp [happenings, Traffic.pollsAfter, hpolling]
  | shown => exact hpolling
  | handled => rfl

theorem Sound.awaited_step (h : v.Sound p) (hadmits : v.Admits o) :
    (v.step o).traffic.awaited.length = if (v.step o).phase = .fetching then 1 else 0 := by
  have hawaited := h.awaited
  rw [traffic_step]
  cases o with
  | background first =>
    rw [Traffic.awaited_run_of_background (background_of_side hadmits trivial), hawaited]
    rfl
  | looked content => exact hawaited
  | requested => exact hawaited
  | synced content =>
    rw [Admits] at hadmits
    simp [hadmits] at hawaited
    simp [happenings, hawaited]
  | asked reply =>
    rw [Admits] at hadmits
    simp [hadmits] at hawaited
    simp [happenings, Traffic.step, Traffic.ending?, Traffic.prepare, hawaited]
  | answered =>
    obtain ⟨fl, hfl⟩ := List.length_eq_one_iff.1 (by simpa [hadmits.1] using hawaited)
    have hstopped := h.not_polling (by simp [hadmits.1])
    simp [happenings, Traffic.step, Traffic.ending?, Traffic.prepare, hfl, hstopped]
  | shown => exact hawaited
  | handled =>
    simp [hadmits.1] at hawaited
    simp [happenings, Traffic.step, Traffic.ending?, Traffic.prepare, hawaited]

theorem Sound.ahead_step (h : v.Sound p) (hadmits : v.Admits o) :
    ∀ fl ∈ (v.step o).traffic.awaited, (v.step o).traffic.feed.now ≤ fl.due := by
  cases o with
  | background first =>
    obtain ⟨hback, htimely, -, hallows⟩ := hadmits
    obtain ⟨-, hnow, -⟩ := v.traffic.feed_step first
    show ∀ fl ∈ (v.traffic.step first).awaited, (v.traffic.step first).feed.now ≤ fl.due
    rw [Traffic.awaited_step_of_background hback, hnow]
    cases first with
    | passed time => exact hallows.2
    | ticked reply =>
      obtain ⟨time, htick, -⟩ := htimely
      have hpolling := h.polling
      rw [Traffic.isPolling_of_nextTick? htick] at hpolling
      rw [h.awaited_nil (by simp [of_decide_eq_true hpolling.symm])]
      exact nofun
    | landed index => exact h.ahead
    | _ => exact hback.elim
  | asked reply =>
    rw [Admits] at hadmits
    have hnone := h.awaited_nil (by simp [hadmits])
    simp [traffic_step, happenings, Traffic.step, Traffic.ending?, Traffic.prepare, hnone]
  | answered =>
    have hlength := h.awaited_step hadmits
    rw [List.length_eq_zero_iff.1 hlength]
    exact nofun
  | _ => exact h.ahead

theorem Sound.lists_step (h : v.Sound p) (o : Occurrence) :
    (v.step o).listsSeen ≤ (v.step o).traffic.feed.publications := by
  have hmore := v.publications_le_step o
  cases o with
  | shown => exact Nat.le_refl _
  | _ => exact Nat.le_trans h.lists hmore

theorem Sound.sessions_step (h : v.Sound p) (o : Occurrence) :
    (v.step o).sessionsSeen ≤ (v.step o).store.publications := by
  cases o with
  | looked content => exact Nat.le_trans h.sessions (v.store.publications_le_looked content)
  | synced content => exact Nat.le_trans h.sessions (v.store.publications_le_looked content)
  | handled => exact Nat.le_refl _
  | _ => exact h.sessions

theorem Sound.memory_step (h : v.Sound p) (o : Occurrence) (hfile : (v.step o).store.file = none) :
    (v.step o).store.publications = (v.step o).sessionsSeen := by
  have hlooked : ∀ content, (v.store.looked content).file = none →
      (v.store.looked content).publications = v.sessionsSeen := by
    intro content hnone
    rw [SessionStore.file_looked] at hnone
    rw [SessionStore.looked_of_memory hnone]
    exact h.memory hnone
  cases o with
  | looked content => exact hlooked content hfile
  | synced content => exact hlooked content hfile
  | handled => rfl
  | _ => exact h.memory hfile

theorem Sound.inFlight_background (h : v.Sound p) {first : Happening}
    (hadmits : v.Admits (.background first)) :
    v.outstanding + first.isTick.toNat ≤ (v.traffic.step first).feed.inFlight.length := by
  have hbefore := h.inFlight
  obtain ⟨hback, htimely, -, hallows⟩ := hadmits
  rw [Traffic.inFlight_step]
  cases first with
  | passed time => exact hbefore
  | ticked reply =>
    obtain ⟨time, htick, -⟩ := htimely
    obtain ⟨schedule, hschedule⟩ :=
      Option.isSome_iff_exists.1 (Traffic.isPolling_of_nextTick? htick)
    have hmore := (Feed.insertFlight_perm ⟨schedule.next + reply.2, reply.1⟩
      v.traffic.feed.inFlight).length_eq
    simp only [Traffic.prepare, Feed.ticked, hschedule, hmore]
    exact Nat.succ_le_succ hbefore
  | landed index =>
    have hsent : v.outstanding < v.traffic.feed.inFlight.length := hallows
    show v.outstanding ≤ (v.traffic.feed.inFlight.eraseIdx index).length
    rw [List.length_eraseIdx]
    split <;> omega
  | _ => exact hback.elim

theorem Sound.inFlight_step (h : v.Sound p) (hadmits : v.Admits o) :
    (v.step o).outstanding ≤ (v.step o).traffic.feed.inFlight.length := by
  have hbefore := h.inFlight
  have hrequested := requested_add_outstanding_step hadmits
  cases o with
  | background first =>
    have hafter := h.inFlight_background hadmits
    have hkept : (v.step (.background first)).outstanding = v.outstanding + first.isTick.toNat :=
      (Nat.zero_add _).symm.trans hrequested
    rw [hkept]
    exact hafter
  | looked content => exact (Nat.zero_add _).symm.trans_le (hrequested.trans_le hbefore)
  | requested => exact (Nat.le_add_left _ _).trans (hrequested.trans_le hbefore)
  | answered =>
    rw [traffic_step, happenings]
    split
    · rw [Traffic.run_cons, Traffic.run_nil, Traffic.inFlight_step]
      exact hbefore
    · rw [Traffic.run_cons, Traffic.run_cons, Traffic.run_nil, Traffic.inFlight_step,
        Traffic.prepare, Traffic.inFlight_step]
      exact hbefore
  | _ =>
    rw [traffic_step]
    exact hbefore

theorem Sound.step (h : v.Sound p) (hadmits : v.Admits o) : (v.step o).Sound p where
  paced := by
    rw [traffic_step]
    exact h.paced.run _
  polling := h.polling_step hadmits
  awaited := h.awaited_step hadmits
  ahead := h.ahead_step hadmits
  lists := h.lists_step o
  sessions := h.sessions_step o
  memory := h.memory_step o
  inFlight := h.inFlight_step hadmits

theorem Sound.run (h : v.Sound p) (hvalid : v.Valid os) : (v.run os).Sound p := by
  induction os generalizing v with
  | nil => exact h
  | cons o os ih => exact ih (h.step hvalid.1) hvalid.2

/-! ### Keeping to the clock -/

theorem Sound.onTime_happenings (h : v.Sound p) (hadmits : v.Admits o) :
    v.traffic.OnTime (v.happenings o) := by
  cases o with
  | background first => exact ⟨hadmits.2.1, hadmits.2.2.1, trivial⟩
  | asked reply => exact ⟨trivial, trivial, trivial⟩
  | answered =>
    have hstopped := h.not_polling (by simp [hadmits.1])
    have hkept : (v.traffic.step (.answered 0)).feed.isPolling = false := by
      rw [Traffic.isPolling_step, hstopped]
      rfl
    simp only [happenings, hstopped]
    exact ⟨hadmits.2, trivial, hkept, trivial, trivial⟩
  | handled => exact ⟨trivial, trivial, trivial⟩
  | _ => trivial

theorem Sound.onTime_happened (h : v.Sound p) (hvalid : v.Valid os) :
    v.traffic.OnTime (v.happened os) := by
  induction os generalizing v with
  | nil => trivial
  | cons o os ih =>
    have hrest := ih (h.step hvalid.1) hvalid.2
    rw [traffic_step] at hrest
    exact (Traffic.onTime_append _ _ _).2 ⟨h.onTime_happenings hvalid.1, hrest⟩

end Vigil

/-! ## How many schedules there are -/

/-- Schedules that are made, and schedules that are given up. -/
def Happening.makes : Happening → Bool
  | .scheduled => true
  | _ => false

def Happening.givesUp : Happening → Bool
  | .stopped => true
  | _ => false

namespace Vigil

variable {p : Nat} {v : Vigil} {o : Occurrence} {os : List Occurrence}

theorem countP_of_background {hs : List Happening} (hback : ∀ h ∈ hs, h.IsBackground) :
    hs.countP Happening.makes = 0 ∧ hs.countP Happening.givesUp = 0 := by
  have hnone : ∀ h ∈ hs, h.makes = false ∧ h.givesUp = false := by
    intro h hmem
    have hbackground := hback h hmem
    cases h with
    | scheduled => exact hbackground.elim
    | stopped => exact hbackground.elim
    | _ => exact ⟨rfl, rfl⟩
  simp only [List.countP_eq_zero, Bool.not_eq_true]
  exact ⟨fun h hmem => (hnone h hmem).1, fun h hmem => (hnone h hmem).2⟩

/-- A schedule is made when there is none, and given up when there is one. -/
theorem Sound.made_happenings (h : v.Sound p) (hadmits : v.Admits o) :
    (v.happenings o).countP Happening.makes + v.traffic.feed.isPolling.toNat =
      (v.happenings o).countP Happening.givesUp + (v.step o).traffic.feed.isPolling.toNat := by
  rw [h.polling_step hadmits, h.polling]
  cases o with
  | background first =>
    obtain ⟨hmakes, hgives⟩ := countP_of_background (background_of_side hadmits trivial)
    rw [hmakes, hgives]
    rfl
  | synced content =>
    rw [Admits] at hadmits
    simp [happenings, hadmits]
  | asked reply =>
    rw [Admits] at hadmits
    simp [happenings, hadmits, Happening.makes, Happening.givesUp]
  | answered =>
    have hstopped := h.not_polling (by simp [hadmits.1])
    simp [happenings, hadmits.1, hstopped, Happening.makes, Happening.givesUp]
  | handled => simp [happenings, hadmits.1, Happening.makes, Happening.givesUp]
  | _ => rfl

theorem Sound.made (h : v.Sound p) (hvalid : v.Valid os) :
    (v.happened os).countP Happening.makes + v.traffic.feed.isPolling.toNat =
      (v.happened os).countP Happening.givesUp + (v.run os).traffic.feed.isPolling.toNat := by
  induction os generalizing v with
  | nil => rfl
  | cons o os ih =>
    have hfirst := h.made_happenings hvalid.1
    have hrest := ih (h.step hvalid.1) hvalid.2
    simp only [happened, collect, List.countP_append, run_cons] at hrest ⊢
    omega

/-- While the loop waits there is one schedule, and every other one that was made was given up. -/
theorem one_schedule_of_waiting {store : SessionStore} (hvalid : (begun p store).Valid os)
    (hphase : ((begun p store).run os).phase = .waiting) :
    (∃ next, ((begun p store).run os).traffic.feed.schedule = some ⟨next, p⟩) ∧
      ((begun p store).happened os).countP Happening.makes =
        ((begun p store).happened os).countP Happening.givesUp + 1 := by
  have hsound := (sound_begun p store).run hvalid
  have hpolling : ((begun p store).run os).traffic.feed.isPolling = true := by
    simp [hsound.polling, hphase]
  have hmade := (sound_begun p store).made hvalid
  rw [hpolling] at hmade
  refine ⟨?_, hmade⟩
  obtain ⟨⟨next, period⟩, hschedule⟩ := Option.isSome_iff_exists.1 hpolling
  obtain rfl : period = p := hsound.paced.2 _ hschedule
  exact ⟨next, hschedule⟩

end Vigil

end AlertConsole
