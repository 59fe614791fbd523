import AlertConsole.Feed.Basic
import Mathlib.Data.List.Perm.Basic

/-!
# Landings and ticks

A fetch that ends with a list changes the list of the feed and is one publication; one that ends
without changes neither (`incidents_land`, `publications_land`). A tick issues a fetch and leaves
both alone.
-/

namespace AlertConsole

/-- What a fetch will give, and after which time. -/
abbrev Reply : Type :=
  Except ApiError Json × Nat

/-- The list that the outcome of a fetch has in it. -/
def listing? (outcome : Except ApiError Json) : Option (List Entry) :=
  (outcome.bind Listing.ofJson).toOption

namespace Feed

variable (f : Feed) {outcome : Except ApiError Json}

/-! ## Landings -/

theorem land_of_listing {entries : List Entry} (h : listing? outcome = some entries) :
    f.land outcome =
      (.ok entries.length,
        { f with
          incidents := entries
          publications := f.publications + 1
          landed := f.landed + 1 }) := by
  unfold land
  unfold listing? at h
  rcases hbind : outcome.bind Listing.ofJson with cause | listed
  · simp [hbind, Except.toOption] at h
  · simp only [hbind, Except.toOption, Option.some.injEq] at h
    rw [h]

theorem land_of_failure (h : listing? outcome = none) :
    (f.land outcome).2 = { f with landed := f.landed + 1 } := by
  unfold land
  unfold listing? at h
  rcases hbind : outcome.bind Listing.ofJson with cause | listed
  · rfl
  · simp [hbind, Except.toOption] at h

variable (outcome)

theorem incidents_land :
    (f.land outcome).2.incidents = (listing? outcome).getD f.incidents := by
  rcases h : listing? outcome with _ | entries
  · rw [land_of_failure f h]
    rfl
  · rw [land_of_listing f h]
    rfl

theorem publications_land :
    (f.land outcome).2.publications = f.publications + (listing? outcome).toList.length := by
  rcases h : listing? outcome with _ | entries
  · rw [land_of_failure f h]
    rfl
  · rw [land_of_listing f h]
    rfl

@[simp] theorem now_land : (f.land outcome).2.now = f.now := by
  unfold land
  split <;> rfl

@[simp] theorem schedule_land : (f.land outcome).2.schedule = f.schedule := by
  unfold land
  split <;> rfl

@[simp] theorem interval_land : (f.land outcome).2.interval = f.interval := by
  unfold land
  split <;> rfl

@[simp] theorem inFlight_land : (f.land outcome).2.inFlight = f.inFlight := by
  unfold land
  split <;> rfl

theorem isPolling_land : (f.land outcome).2.isPolling = f.isPolling := by
  rw [isPolling, schedule_land, isPolling]

@[simp] theorem nextTick?_land : (f.land outcome).2.nextTick? = f.nextTick? := by
  rw [nextTick?, schedule_land, nextTick?]

/-! ## Ticks -/

theorem incidents_ticked (reply : Reply) : (f.ticked reply).incidents = f.incidents := by
  unfold ticked
  split <;> rfl

theorem publications_ticked (reply : Reply) : (f.ticked reply).publications = f.publications := by
  unfold ticked
  split <;> rfl

theorem interval_ticked (reply : Reply) : (f.ticked reply).interval = f.interval := by
  unfold ticked
  split <;> rfl

theorem isPolling_ticked (reply : Reply) : (f.ticked reply).isPolling = f.isPolling := by
  unfold ticked isPolling
  rcases hschedule : f.schedule with _ | schedule
  · rw [hschedule]
  · rfl

theorem insertFlight_perm (fl : Flight) (flights : List Flight) :
    (insertFlight fl flights).Perm (fl :: flights) := by
  induction flights with
  | nil => exact .refl _
  | cons first rest ih =>
    unfold insertFlight
    split
    · exact (ih.cons first).trans (.swap fl first rest)
    · exact .refl _

end Feed

end AlertConsole
