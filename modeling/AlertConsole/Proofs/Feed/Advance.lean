import AlertConsole.Proofs.Feed.Landing

/-!
# What happens next

Up to a limit either a fetch comes in, or the schedule ticks, or nothing happens; `advance` takes
these moments one by one. What comes first is due first (`moment_of_landing`, `le_head_of_tick`,
`le_of_quiet`), so a feed stays `Punctual`: its clock is not past anything that is to come.
-/

namespace AlertConsole.Feed

variable {f : Feed} {limit : Nat}

/-! ## Moments -/

theorem lt_nextTick?_of_tickBy (h : f.tickBy limit = .quiet) :
    ∀ time, f.nextTick? = some time → limit < time := by
  intro time htime
  unfold tickBy at h
  rw [htime] at h
  by_cases hle : time ≤ limit
  · simp [hle] at h
  · exact Nat.not_le.1 hle

theorem moment_of_landing {fl : Flight} {rest : List Flight}
    (h : f.moment limit = .landing fl rest) :
    f.inFlight = fl :: rest ∧ fl.due ≤ limit ∧ ∀ time, f.nextTick? = some time → fl.due ≤ time := by
  have hinFlight := inFlight_of_moment h
  unfold moment at h
  simp only [hinFlight] at h
  split at h
  · next hdue =>
    refine ⟨hinFlight, hdue.1, fun time htime => ?_⟩
    simpa [htime] using hdue.2
  · exact absurd h (tickBy_ne_landing _ _ _ _)

/-- Where no fetch comes in, one that is due within the limit is due after the next tick. -/
theorem moment_of_not_landing (h : ∀ fl rest, f.moment limit ≠ .landing fl rest) :
    f.moment limit = f.tickBy limit ∧
      ∀ fl, f.inFlight.head? = some fl → fl.due ≤ limit →
        ∃ time, f.nextTick? = some time ∧ time < fl.due := by
  unfold moment at h ⊢
  rcases hinFlight : f.inFlight with _ | ⟨first, rest⟩
  · exact ⟨rfl, fun fl hfl => by cases hfl⟩
  · simp only [hinFlight] at h ⊢
    split
    · next hdue => exact absurd (if_pos hdue) (h first rest)
    · next hdue =>
      refine ⟨rfl, fun fl hfl hle => ?_⟩
      cases hfl
      rcases htick : f.nextTick? with _ | time
      · simp [hle, htick] at hdue
      · exact ⟨time, rfl, by simpa [hle, htick] using hdue⟩

theorem lt_nextTick?_of_quiet (h : f.moment limit = .quiet) :
    ∀ time, f.nextTick? = some time → limit < time := by
  have hnone : ∀ fl rest, f.moment limit ≠ .landing fl rest := by simp [h]
  exact lt_nextTick?_of_tickBy ((moment_of_not_landing hnone).1.symm.trans h)

theorem le_of_quiet (h : f.moment limit = .quiet) :
    (∀ fl, f.inFlight.head? = some fl → limit ≤ fl.due) ∧
      ∀ time, f.nextTick? = some time → limit ≤ time := by
  have hnone : ∀ fl rest, f.moment limit ≠ .landing fl rest := by simp [h]
  have hhead := (moment_of_not_landing hnone).2
  have htick := lt_nextTick?_of_quiet h
  refine ⟨fun fl hfl => ?_, fun time htime => Nat.le_of_lt (htick time htime)⟩
  by_contra hdue
  obtain ⟨time, htime, hlt⟩ := hhead fl hfl (by omega)
  have hpast := htick time htime
  omega

theorem le_head_of_tick {time : Nat} (h : f.moment limit = .tick time) :
    ∀ fl, f.inFlight.head? = some fl → time ≤ fl.due := by
  have hnone : ∀ fl rest, f.moment limit ≠ .landing fl rest := by simp [h]
  obtain ⟨-, hhead⟩ := moment_of_not_landing hnone
  obtain ⟨htick, hle⟩ := nextTick?_of_moment h
  intro fl hfl
  by_contra hdue
  obtain ⟨next, hnext, hlt⟩ := hhead fl hfl (by omega)
  rw [htick, Option.some.injEq] at hnext
  omega

/-! ## Letting time pass -/

theorem advance_of_quiet (h : f.moment limit = .quiet) :
    f.advance limit = .done { f with now := max f.now limit } := by
  rw [advance]
  split <;> simp_all

theorem advance_of_tick {time : Nat} (h : f.moment limit = .tick time) :
    f.advance limit =
      .ask (I := Link) .fetch fun reply => (f.ticked reply).advance limit := by
  rw [advance]
  split <;> simp_all

theorem advance_of_landing {fl : Flight} {rest : List Flight}
    (h : f.moment limit = .landing fl rest) :
    f.advance limit =
      (reportFailure .pollFailed (f.landFirst fl rest).1 >>= fun _ =>
        (f.landFirst fl rest).2.advance limit) := by
  rw [advance]
  split
  · simp_all
  · simp_all
  · next hlanding =>
    rw [h] at hlanding
    cases hlanding
    rfl

theorem now_landFirst (fl : Flight) (rest : List Flight) :
    (f.landFirst fl rest).2.now = fl.due :=
  now_land _ _

theorem now_ticked {time : Nat} (h : f.nextTick? = some time) (reply : Reply) :
    (f.ticked reply).now = time := by
  unfold nextTick? at h
  unfold ticked
  rcases hschedule : f.schedule with _ | schedule
  · simp [hschedule] at h
  · by_cases hperiod : schedule.period = 0
    · simp [hschedule, hperiod] at h
    · simpa [hschedule, hperiod] using h

/-! ## Punctual feeds -/

/-- The clock is not past anything that is to come, and the fetches under way are in order. -/
structure Punctual (f : Feed) : Prop where
  sorted : f.inFlight.Pairwise fun a b => a.due ≤ b.due
  due : ∀ fl ∈ f.inFlight, f.now ≤ fl.due
  tick : ∀ time, f.nextTick? = some time → f.now ≤ time

theorem punctual_idle (interval : Nat) : (idle interval).Punctual :=
  ⟨.nil, (fun _ h => nomatch h), (fun _ h => nomatch h)⟩

theorem Punctual.land (h : f.Punctual) (outcome : Except ApiError Json) :
    (f.land outcome).2.Punctual := by
  refine ⟨?_, ?_, ?_⟩
  · rw [inFlight_land]
    exact h.sorted
  · rw [inFlight_land, now_land]
    exact h.due
  · rw [nextTick?_land, now_land]
    exact h.tick

theorem Punctual.le_of_head (h : f.Punctual) {time : Nat}
    (hhead : ∀ fl, f.inFlight.head? = some fl → time ≤ fl.due) :
    ∀ fl ∈ f.inFlight, time ≤ fl.due := by
  intro fl hfl
  have hsorted := h.sorted
  rcases hinFlight : f.inFlight with _ | ⟨first, rest⟩
  · rw [hinFlight] at hfl
    cases hfl
  · rw [hinFlight] at hfl hsorted hhead
    have hfirst := hhead first rfl
    rcases List.mem_cons.1 hfl with rfl | hfl
    · exact hfirst
    · exact Nat.le_trans hfirst ((List.pairwise_cons.1 hsorted).1 fl hfl)

/-- Nothing is to come up to `time`. -/
theorem Punctual.passed (h : f.Punctual) {time : Nat}
    (hhead : ∀ fl, f.inFlight.head? = some fl → time ≤ fl.due)
    (htick : ∀ next, f.nextTick? = some next → time ≤ next) :
    ({ f with now := time } : Feed).Punctual :=
  ⟨h.sorted, h.le_of_head hhead, htick⟩

theorem pairwise_insertFlight (fl : Flight) {flights : List Flight}
    (h : flights.Pairwise fun a b => a.due ≤ b.due) :
    (insertFlight fl flights).Pairwise fun a b => a.due ≤ b.due := by
  induction flights with
  | nil => exact List.pairwise_singleton _ fl
  | cons first rest ih =>
    obtain ⟨hfirst, hrest⟩ := List.pairwise_cons.1 h
    unfold insertFlight
    split
    · next hle =>
      refine List.pairwise_cons.2 ⟨fun a ha => ?_, ih hrest⟩
      rcases List.mem_cons.1 ((insertFlight_perm fl rest).mem_iff.1 ha) with rfl | ha
      · exact hle
      · exact hfirst a ha
    · next hlt =>
      refine List.pairwise_cons.2 ⟨fun a ha => ?_, h⟩
      rcases List.mem_cons.1 ha with rfl | ha
      · omega
      · have hle := hfirst a ha
        omega

theorem Punctual.ticked (h : f.Punctual) {time : Nat} (htick : f.nextTick? = some time)
    (hhead : ∀ fl, f.inFlight.head? = some fl → time ≤ fl.due) (reply : Reply) :
    (f.ticked reply).Punctual := by
  unfold nextTick? at htick
  rcases hschedule : f.schedule with _ | schedule
  · simp [hschedule] at htick
  by_cases hperiod : schedule.period = 0
  · simp [hschedule, hperiod] at htick
  obtain rfl : schedule.next = time := by simpa [hschedule, hperiod] using htick
  unfold Feed.ticked
  simp only [hschedule]
  refine ⟨pairwise_insertFlight _ h.sorted, fun fl hfl => ?_, fun next hnext => ?_⟩
  · rcases List.mem_cons.1 ((insertFlight_perm _ _).mem_iff.1 hfl) with rfl | hfl
    · exact Nat.le_add_right _ _
    · exact h.le_of_head hhead fl hfl
  · simp only [nextTick?, hperiod, if_false, Option.some.injEq] at hnext
    show schedule.next ≤ next
    omega

theorem Punctual.landFirst (h : f.Punctual) {fl : Flight} {rest : List Flight}
    (hinFlight : f.inFlight = fl :: rest)
    (htick : ∀ time, f.nextTick? = some time → fl.due ≤ time) :
    (f.landFirst fl rest).2.Punctual := by
  obtain ⟨hfirst, hrest⟩ := List.pairwise_cons.1 (hinFlight ▸ h.sorted)
  exact Punctual.land ⟨hrest, hfirst, htick⟩ fl.outcome

end AlertConsole.Feed
