import AlertConsole.Proofs.Dialogue
import AlertConsole.Proofs.Feed.Advance
import AlertConsole.Proofs.Feed.Traffic

/-!
# Operations that nothing comes between

Where nothing else happens until a fetch is answered, an operation that fetches a list ends with
that list (`runs_refresh_of_quiet`, `runs_start_of_quiet`, `runs_resolve_of_quiet`).
-/

namespace AlertConsole

/-! ## A list of one incident -/

theorem Listing.ofJson_singleton {key : String} {v : Json} {i : Incident}
    (h : Incident.ofJson v = .ok i) :
    Listing.ofJson (.object [(key, v)]) = .ok [⟨key, i.backfill⟩] := by
  have hmap : Decode.map Incident.ofJson (.object [(key, v)]) = .ok (.ofList [(key, i)]) := by
    rw [Decode.map, List.mapM_cons, List.mapM_nil, Decode.entry, h]
    rfl
  have horder : Listing.order (.ofList [(key, i)]) = [⟨key, i.backfill⟩] := by
    rw [Listing.order]
    exact List.mergeSort_singleton _
  rw [Listing.ofJson, Decode.optional, hmap]
  · exact congrArg Except.ok horder
  · exact fun h => nomatch h

theorem listing?_singleton (key : String) {v : Json} {i : Incident}
    (h : Incident.ofJson v = .ok i) :
    listing? (.ok (.object [(key, v)])) = some [⟨key, i.backfill⟩] := by
  show (Listing.ofJson (.object [(key, v)])).toOption = _
  rw [Listing.ofJson_singleton h]
  rfl

/-! ## Operations -/

namespace Feed

variable {f : Feed} {outcome : Except ApiError Json} {latency : Nat} {entries : List Entry}

/-- The feed after a fetch of its own gave a list. -/
def fetched (f : Feed) (latency : Nat) (entries : List Entry) : Feed :=
  { f with
    now := f.now + latency
    incidents := entries
    publications := f.publications + 1
    landed := f.landed + 1 }

theorem runs_refresh_of_quiet (h : f.moment (f.now + latency) = .quiet)
    (hlisting : listing? outcome = some entries) :
    f.refresh.Runs [⟨.fetch, (outcome, latency)⟩] (.ok entries.length, f.fetched latency entries) := by
  have hadvance : (f.advance (f.now + latency)).Runs [] { f with now := f.now + latency } := by
    rw [advance_of_quiet h, Nat.max_eq_right (Nat.le_add_right _ _)]
    exact .done _
  have hland := land_of_listing { f with now := f.now + latency } hlisting
  unfold refresh
  refine Dialogue.runs_bind_iff.2 ⟨(outcome, latency), [_], [], rfl, Dialogue.runs_question_iff.2 rfl, ?_⟩
  refine Dialogue.runs_bind_iff.2 ⟨_, [], [], rfl, hadvance, ?_⟩
  exact Dialogue.runs_done_iff.2 ⟨rfl, hland.symm⟩

theorem runs_start_of_quiet (h : f.moment (f.now + latency) = .quiet)
    (hpolling : f.isPolling = false) (hlisting : listing? outcome = some entries) :
    f.start.Runs [⟨.fetch, (outcome, latency)⟩, ⟨.report (.pollingStarted f.interval), ()⟩]
      { f.fetched latency entries with
        schedule := some ⟨f.now + latency + f.interval, f.interval⟩ } := by
  have hstopped : ¬(f.fetched latency entries).isPolling = true := by
    rw [Bool.not_eq_true]
    exact hpolling
  unfold start
  refine Dialogue.runs_bind_iff.2 ⟨_, [_], [_], rfl, runs_refresh_of_quiet h hlisting, ?_⟩
  refine Dialogue.runs_bind_iff.2 ⟨(), [], [_], rfl, .done (), ?_⟩
  rw [if_neg hstopped]
  exact Dialogue.runs_bind_iff.2 ⟨(), [_], [], rfl, Dialogue.runs_question_iff.2 rfl, .done _⟩

theorem runs_resolve_of_quiet (key : String) (h : f.moment (f.now + latency) = .quiet)
    (hlisting : listing? outcome = some entries) :
    (f.resolve key).Runs
      [⟨.delete key, .ok ()⟩, ⟨.report (.incidentResolved key), ()⟩, ⟨.fetch, (outcome, latency)⟩]
      (.ok (), f.fetched latency entries) := by
  unfold resolve
  refine Dialogue.runs_bind_iff.2
    ⟨.ok (), [_], [_, _], rfl, Dialogue.runs_question_iff.2 rfl, ?_⟩
  refine Dialogue.runs_bind_iff.2 ⟨(), [_], [_], rfl, Dialogue.runs_question_iff.2 rfl, ?_⟩
  refine Dialogue.runs_bind_iff.2 ⟨_, [_], [], rfl, runs_refresh_of_quiet h hlisting, ?_⟩
  exact Dialogue.runs_bind_iff.2 ⟨(), [], [], rfl, .done (), .done _⟩

theorem runs_resolve_of_refused (f : Feed) (key : String) (cause : ApiError) :
    (f.resolve key).Runs [⟨.delete key, .error cause⟩] (.error cause, f) := by
  unfold resolve
  exact Dialogue.runs_bind_iff.2
    ⟨.error cause, [_], [], rfl, Dialogue.runs_question_iff.2 rfl, .done _⟩

end Feed

end AlertConsole
