import AlertConsole.Proofs.Feed.Landing

/-!
# What happens to a feed

A feed is at work together with the fetches that its operations wait for. A `Happening` issues a
fetch, ends one of those under way, or changes the clock or the schedule, and the happenings may
come in any order. The list of the feed is the one that the last fetch to end with a list gave, and
there is one publication for each of these (`incidents_run`, `publications_run`); every fetch ends
at most once (`endings_perm`).
-/

namespace AlertConsole

/-- A feed with the fetches that its operations wait for. -/
structure Traffic where
  feed : Feed
  awaited : List Flight

inductive Happening where
  /-- The clock shows a time. -/
  | passed (time : Nat)
  /-- The schedule issues a fetch. -/
  | ticked (reply : Reply)
  /-- An operation issues a fetch. -/
  | asked (reply : Reply)
  /-- A fetch of the schedule ends. -/
  | landed (index : Nat)
  /-- A fetch of an operation ends. -/
  | answered (index : Nat)
  | scheduled
  | stopped

namespace Traffic

/-! ## One happening -/

/-- A feed that has not been started. -/
def idle (interval : Nat) : Traffic :=
  ⟨.idle interval, []⟩

/-- The fetch that a happening issues. -/
def issue? (s : Traffic) : Happening → Option Reply
  | .ticked reply => if s.feed.isPolling then some reply else none
  | .asked reply => some reply
  | _ => none

/-- The outcome of the fetch that a happening ends. -/
def ending? (s : Traffic) : Happening → Option (Except ApiError Json)
  | .landed index => s.feed.inFlight[index]?.map Flight.outcome
  | .answered index => s.awaited[index]?.map Flight.outcome
  | _ => none

/-- The state with a fetch taken out, or with the clock or the schedule changed. -/
def prepare (s : Traffic) : Happening → Traffic
  | .passed time => { s with feed := { s.feed with now := time } }
  | .ticked reply => { s with feed := s.feed.ticked reply }
  | .asked reply => { s with awaited := s.awaited ++ [⟨s.feed.now + reply.2, reply.1⟩] }
  | .landed index =>
    { s with feed := { s.feed with inFlight := s.feed.inFlight.eraseIdx index } }
  | .answered index => { s with awaited := s.awaited.eraseIdx index }
  | .scheduled =>
    let first := s.feed.now + s.feed.interval
    { s with feed := { s.feed with schedule := some ⟨first, s.feed.interval⟩ } }
  | .stopped => { s with feed := { s.feed with schedule := none } }

def step (s : Traffic) (h : Happening) : Traffic :=
  match s.ending? h with
  | none => s.prepare h
  | some outcome => { s.prepare h with feed := ((s.prepare h).feed.land outcome).2 }

/-- The fetches under way. -/
def underWay (s : Traffic) : List Flight :=
  s.feed.inFlight ++ s.awaited

theorem incidents_prepare (s : Traffic) (h : Happening) :
    (s.prepare h).feed.incidents = s.feed.incidents := by
  cases h with
  | ticked reply => exact s.feed.incidents_ticked reply
  | _ => rfl

theorem publications_prepare (s : Traffic) (h : Happening) :
    (s.prepare h).feed.publications = s.feed.publications := by
  cases h with
  | ticked reply => exact s.feed.publications_ticked reply
  | _ => rfl

/-- A happening that ends no fetch leaves the list alone. -/
theorem step_of_no_ending {s : Traffic} {h : Happening} (he : s.ending? h = none) :
    (s.step h).feed.incidents = s.feed.incidents ∧
      (s.step h).feed.publications = s.feed.publications := by
  rw [step, he]
  exact ⟨s.incidents_prepare h, s.publications_prepare h⟩

theorem step_of_ending {s : Traffic} {h : Happening} {outcome : Except ApiError Json}
    (he : s.ending? h = some outcome) :
    (s.step h).feed.incidents = (listing? outcome).getD s.feed.incidents ∧
      (s.step h).feed.publications =
        s.feed.publications + (listing? outcome).toList.length := by
  rw [step, he]
  refine ⟨?_, ?_⟩
  · rw [← s.incidents_prepare h]
    exact Feed.incidents_land _ outcome
  · rw [← s.publications_prepare h]
    exact Feed.publications_land _ outcome

/-! ## Runs -/

def run (s : Traffic) (hs : List Happening) : Traffic :=
  hs.foldl step s

/-- The fetches issued, in this order. -/
def issued (s : Traffic) : List Happening → List Reply
  | [] => []
  | h :: hs => (s.issue? h).toList ++ (s.step h).issued hs

/-- The outcomes of the fetches that ended, in this order. -/
def endings (s : Traffic) : List Happening → List (Except ApiError Json)
  | [] => []
  | h :: hs => (s.ending? h).toList ++ (s.step h).endings hs

/-- The lists that were published, in this order. -/
def lists (s : Traffic) (hs : List Happening) : List (List Entry) :=
  (s.endings hs).filterMap listing?

@[simp] theorem run_nil (s : Traffic) : s.run [] = s := rfl

@[simp] theorem run_cons (s : Traffic) (h : Happening) (hs : List Happening) :
    s.run (h :: hs) = (s.step h).run hs := rfl

theorem run_append (s : Traffic) (hs hs' : List Happening) :
    s.run (hs ++ hs') = (s.run hs).run hs' := by
  rw [run, List.foldl_append]
  rfl

theorem issued_append (s : Traffic) (hs hs' : List Happening) :
    s.issued (hs ++ hs') = s.issued hs ++ (s.run hs).issued hs' := by
  induction hs generalizing s with
  | nil => rfl
  | cons h hs ih => rw [List.cons_append, issued, ih, issued, List.append_assoc, run_cons]

theorem lists_cons (s : Traffic) (h : Happening) (hs : List Happening) :
    s.lists (h :: hs) = (s.ending? h).toList.filterMap listing? ++ (s.step h).lists hs := by
  rw [lists, endings, List.filterMap_append]
  rfl

theorem getLast?_append_getD {α : Type} (as bs : List α) (a : α) :
    (as ++ bs).getLast?.getD a = bs.getLast?.getD (as.getLast?.getD a) := by
  rw [List.getLast?_append]
  rcases bs.getLast? with _ | b <;> rfl

/-- The list is the one that was published last. -/
theorem incidents_run (s : Traffic) (hs : List Happening) :
    (s.run hs).feed.incidents = (s.lists hs).getLast?.getD s.feed.incidents := by
  induction hs generalizing s with
  | nil => rfl
  | cons h hs ih =>
    rw [run_cons, ih, lists_cons, getLast?_append_getD]
    congr 1
    rcases he : s.ending? h with _ | outcome
    · rw [(step_of_no_ending he).1]
      rfl
    · rw [(step_of_ending he).1]
      rcases hl : listing? outcome with _ | entries <;> simp [hl]

theorem publications_run (s : Traffic) (hs : List Happening) :
    (s.run hs).feed.publications = s.feed.publications + (s.lists hs).length := by
  induction hs generalizing s with
  | nil => rfl
  | cons h hs ih =>
    rw [run_cons, ih, lists_cons, List.length_append, ← Nat.add_assoc]
    congr 1
    rcases he : s.ending? h with _ | outcome
    · rw [(step_of_no_ending he).2]
      rfl
    · rw [(step_of_ending he).2]
      rcases hl : listing? outcome with _ | entries <;> simp [hl]

/-! ## Every fetch ends at most once -/

/-- The outcomes that are to come. -/
def pending (s : Traffic) : List (Except ApiError Json) :=
  s.underWay.map Flight.outcome

theorem pending_step (s : Traffic) (h : Happening) : (s.step h).pending = (s.prepare h).pending := by
  unfold step
  split
  · rfl
  · rw [pending, underWay, Feed.inFlight_land]
    rfl

theorem getElem?_toList_append_eraseIdx_perm {α : Type} (as : List α) (index : Nat) :
    (as[index]?.toList ++ as.eraseIdx index).Perm as := by
  rcases Nat.lt_or_ge index as.length with hlt | hge
  · rw [List.getElem?_eq_getElem hlt]
    exact List.getElem_cons_eraseIdx_perm hlt
  · rw [List.getElem?_eq_none hge, List.eraseIdx_of_length_le hge]
    exact .refl as

theorem ending_perm_step (s : Traffic) (h : Happening) :
    ((s.ending? h).toList ++ (s.step h).pending).Perm
      (s.pending ++ (s.issue? h).toList.map Prod.fst) := by
  rw [pending_step]
  cases h with
  | passed time => exact .of_eq (List.append_nil _).symm
  | scheduled => exact .of_eq (List.append_nil _).symm
  | stopped => exact .of_eq (List.append_nil _).symm
  | asked reply =>
    refine .of_eq ?_
    simp [ending?, issue?, prepare, pending, underWay]
  | ticked reply =>
    rcases hschedule : s.feed.schedule with _ | schedule
    · refine .of_eq ?_
      simp [ending?, issue?, prepare, pending, underWay, Feed.ticked, Feed.isPolling, hschedule]
    · have hinsert := (Feed.insertFlight_perm ⟨schedule.next + reply.2, reply.1⟩
        s.feed.inFlight).append_right s.awaited
      simp only [ending?, issue?, prepare, pending, underWay, Feed.ticked, Feed.isPolling,
        hschedule, Option.isSome_some, if_true, Option.toList_some, List.map_cons, List.map_nil]
      exact (hinsert.map Flight.outcome).trans (List.perm_append_singleton _ _).symm
  | landed index =>
    have herase := (getElem?_toList_append_eraseIdx_perm s.feed.inFlight index).append_right
      s.awaited
    simpa [ending?, issue?, prepare, pending, underWay, Option.toList_map] using herase.map Flight.outcome
  | answered index =>
    have herase := (getElem?_toList_append_eraseIdx_perm s.awaited index).append_left
      s.feed.inFlight
    have hswap := (List.perm_append_comm_assoc s.awaited[index]?.toList s.feed.inFlight
      (s.awaited.eraseIdx index)).trans herase
    simpa [ending?, issue?, prepare, pending, underWay, Option.toList_map] using hswap.map Flight.outcome

/-- What has ended and what is under way is what was issued. -/
theorem endings_perm (s : Traffic) (hs : List Happening) :
    (s.endings hs ++ (s.run hs).pending).Perm (s.pending ++ (s.issued hs).map Prod.fst) := by
  induction hs generalizing s with
  | nil => exact .of_eq (List.append_nil _).symm
  | cons h hs ih =>
    rw [endings, run_cons, issued, List.map_append, List.append_assoc, ← List.append_assoc s.pending]
    refine ((ih (s.step h)).append_left _).trans ?_
    rw [← List.append_assoc]
    exact (ending_perm_step s h).append_right _

end Traffic

end AlertConsole
