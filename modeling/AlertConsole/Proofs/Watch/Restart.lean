import AlertConsole.Proofs.Watch.Invariant

/-!
# Restarts of a watch

When the loop handles a session that was published, it gives up the schedule, and does nothing else
before it waits again than to look at the session file, to send one request with the token that is
held then, and to await the reply (`exists_restart`, `conducted_of_valid`). Whatever the reply is,
the next schedule counts from it (`ticks_answered`), and nothing can keep the loop from it
(`exists_way`).
-/

namespace AlertConsole

open Http.Client (prepared)
open SessionStore (sessionOf?)

namespace Vigil

/-- A restart: the loop looks at the session file after `early`, sends its request after `mid`, and
gets its reply after `late`. -/
structure Restart where
  early : List Occurrence
  content : FileContent
  mid : List Occurrence
  reply : Reply
  late : List Occurrence

namespace Restart

/-- What comes before the request. -/
def before (r : Restart) : List Occurrence :=
  r.early ++ .synced r.content :: r.mid

def occurrences (r : Restart) : List Occurrence :=
  r.before ++ .asked r.reply :: r.late

/-- What the loop does not do itself. -/
def beside (r : Restart) : List Occurrence :=
  r.early ++ r.mid ++ r.late

end Restart

variable {p : Nat} {v : Vigil} {o : Occurrence} {os during : List Occurrence} {r : Restart}

/-! ## The parts of a restart -/

theorem exists_turn (hphase : (v.run os).phase ≠ v.phase) :
    ∃ side o rest, os = side ++ o :: rest ∧ (∀ o ∈ side, o.IsSide) ∧ ¬o.IsSide := by
  induction os generalizing v with
  | nil => exact absurd rfl hphase
  | cons o os ih =>
    by_cases hside : o.IsSide
    · have hrest : ((v.step o).run os).phase ≠ (v.step o).phase := by
        rwa [phase_step_of_side hside]
      obtain ⟨side, turn, rest, rfl, hsides, hturn⟩ := ih hrest
      exact ⟨o :: side, turn, rest, rfl, List.forall_mem_cons.2 ⟨hside, hsides⟩, hturn⟩
    · exact ⟨[], o, os, rfl, nofun, hside⟩

/-- What the loop may do next is settled by where it stands. -/
theorem turn_of_admits (hadmits : v.Admits o) (hturn : ¬o.IsSide) :
    (v.phase = .stopped → ∃ content, o = .synced content) ∧
      (v.phase = .synced → ∃ reply, o = .asked reply) ∧
      (v.phase = .fetching → o = .answered) ∧
      (v.phase = .waiting → o = .shown ∨ o = .handled) := by
  cases o with
  | background h => exact absurd trivial hturn
  | looked content => exact absurd trivial hturn
  | requested => exact absurd trivial hturn
  | _ => simp_all [Admits]

theorem side_of_fetching (hphase : v.phase = .fetching) (hvalid : v.Valid os)
    (hanswered : .answered ∉ os) : ∀ o ∈ os, o.IsSide := by
  induction os generalizing v with
  | nil => exact nofun
  | cons o os ih =>
    obtain ⟨hadmits, hrest⟩ := hvalid
    obtain ⟨ho, hos⟩ := List.ne_and_not_mem_of_not_mem_cons hanswered
    have hside : o.IsSide := by
      by_contra hturn
      exact ho ((turn_of_admits hadmits hturn).2.2.1 hphase).symm
    exact List.forall_mem_cons.2 ⟨hside, ih ((phase_step_of_side hside).trans hphase) hrest hos⟩

/-- On its way from the stop to the reply the loop looks at the session file once and asks once. -/
theorem exists_restart (hphase : v.phase = .stopped) (hvalid : v.Valid during)
    (hend : (v.run during).phase = .fetching) (hanswered : .answered ∉ during) :
    ∃ r : Restart, during = r.occurrences ∧ ∀ o ∈ r.beside, o.IsSide := by
  obtain ⟨early, turn, rest, rfl, hearly, hturn⟩ := exists_turn (by rw [hend, hphase]; nofun)
  obtain ⟨-, hadmits, hrest⟩ := valid_append_iff.1 hvalid
  have hstopped := (phase_run_of_side (v := v) hearly).trans hphase
  obtain ⟨content, rfl⟩ := (turn_of_admits hadmits hturn).1 hstopped
  rw [run_append, run_cons] at hend
  obtain ⟨mid, turn, late, rfl, hmid, hturn⟩ := exists_turn (by rw [hend]; nofun)
  obtain ⟨-, hadmits, hlate⟩ := valid_append_iff.1 hrest
  obtain ⟨reply, rfl⟩ := (turn_of_admits hadmits hturn).2.1 (phase_run_of_side hmid)
  have hside := side_of_fetching (phase_asked _ reply) hlate (by simp_all)
  refine ⟨⟨early, content, mid, reply, late⟩, ?_, ?_⟩
  · simp [Restart.occurrences, Restart.before]
  · exact List.forall_mem_append.2 ⟨List.forall_mem_append.2 ⟨hearly, hmid⟩, hside⟩

/-! ## Time -/

theorem now_step_of_side (h : v.Sound p) (hphase : ¬v.phase.Awaits) (hadmits : v.Admits o)
    (hside : o.IsSide) : (v.step o).traffic.feed.now = v.traffic.feed.now := by
  cases o with
  | background first =>
    obtain ⟨hback, htimely, -, hallows⟩ := hadmits
    refine (v.traffic.feed_step first).2.1.trans ?_
    cases first with
    | passed time => exact absurd hallows.1 hphase
    | ticked reply =>
      obtain ⟨time, htick, -⟩ := htimely
      have hstopped := h.not_polling (by rintro hwaiting; simp [hwaiting, Phase.Awaits] at hphase)
      simp [Traffic.isPolling_of_nextTick? htick] at hstopped
    | landed index => rfl
    | _ => exact hback.elim
  | looked content => rfl
  | requested => rfl
  | _ => exact hside.elim

theorem now_run_of_side (h : v.Sound p) (hphase : ¬v.phase.Awaits) (hvalid : v.Valid os)
    (hside : ∀ o ∈ os, o.IsSide) : (v.run os).traffic.feed.now = v.traffic.feed.now := by
  induction os generalizing v with
  | nil => rfl
  | cons o os ih =>
    obtain ⟨hadmits, hrest⟩ := hvalid
    obtain ⟨ho, hos⟩ := List.forall_mem_cons.1 hside
    rw [run_cons, ih (h.step hadmits) (by rwa [phase_step_of_side ho]) hrest hos]
    exact now_step_of_side h hphase hadmits ho

/-- The loop waits again no sooner than a reply comes in. -/
theorem phase_ne_waiting (hphase : v.phase ≠ .waiting) (hvalid : v.Valid os)
    (hanswered : .answered ∉ os) : (v.run os).phase ≠ .waiting := by
  induction os generalizing v with
  | nil => exact hphase
  | cons o os ih =>
    obtain ⟨hadmits, hrest⟩ := hvalid
    obtain ⟨ho, hos⟩ := List.ne_and_not_mem_of_not_mem_cons hanswered
    refine ih ?_ hrest hos
    cases o with
    | answered => exact absurd rfl ho
    | shown => exact absurd hadmits.1 hphase
    | synced content => simp
    | asked reply => simp
    | handled => simp
    | _ => exact hphase

/-- Without a schedule nothing ticks, until a reply makes one. -/
theorem countP_isTick_of_stopped (h : v.Sound p) (hphase : v.phase ≠ .waiting)
    (hvalid : v.Valid os) (hanswered : .answered ∉ os) : os.countP Occurrence.isTick = 0 := by
  induction os generalizing v with
  | nil => rfl
  | cons o os ih =>
    obtain ⟨hadmits, hrest⟩ := hvalid
    obtain ⟨ho, hos⟩ := List.ne_and_not_mem_of_not_mem_cons hanswered
    have hone : v.Valid [o] := ⟨hadmits, trivial⟩
    have hlater : (v.step o).phase ≠ .waiting :=
      phase_ne_waiting hphase hone (mt List.mem_singleton.1 ho)
    have hnone : o.isTick = false := by
      cases o with
      | background first =>
        cases first with
        | ticked reply =>
          obtain ⟨-, ⟨time, htick, -⟩, -⟩ := hadmits
          have hstopped := h.not_polling hphase
          rw [Traffic.isPolling_of_nextTick? htick] at hstopped
          cases hstopped
        | _ => rfl
      | _ => rfl
    rw [List.countP_cons, ih (h.step hadmits) hlater hrest hos, hnone]
    rfl

/-! ## The session in force -/

/-- What is found in the session file. -/
def contents (os : List Occurrence) : List FileContent :=
  os.filterMap fun
    | .looked content => some content
    | .synced content => some content
    | _ => none

/-- The session of the last of these contents that has one. -/
def inForce (held : Session) (contents : List FileContent) : Session :=
  (contents.filterMap sessionOf?).getLast?.getD held

theorem inForce_cons (held : Session) (content : FileContent) (rest : List FileContent) :
    inForce held (content :: rest) = inForce ((sessionOf? content).getD held) rest := by
  cases hsession : sessionOf? content with
  | none => simp [inForce, hsession]
  | some session => simp [inForce, hsession, List.getLast?_cons]

theorem file_step (v : Vigil) (o : Occurrence) : (v.step o).store.file = v.store.file := by
  cases o with
  | looked content => exact v.store.file_looked content
  | synced content => exact v.store.file_looked content
  | _ => rfl

theorem file_run (v : Vigil) (os : List Occurrence) : (v.run os).store.file = v.store.file := by
  induction os generalizing v with
  | nil => rfl
  | cons o os ih => rw [run_cons, ih, file_step]

theorem held_run {path : String} (hfile : v.store.file = some path) :
    (v.run os).store.held = inForce v.store.held (contents os) := by
  induction os generalizing v with
  | nil => rfl
  | cons o os ih =>
    rw [run_cons, ih ((v.file_step o).trans hfile)]
    have hlooked : ∀ content, inForce (v.store.looked content).held (contents os) =
        inForce v.store.held (content :: contents os) := by
      intro content
      rw [SessionStore.looked_of_file hfile, SessionStore.held_learned, inForce_cons]
    cases o with
    | looked content => exact hlooked content
    | synced content => exact hlooked content
    | _ => rfl

/-! ## Whole restarts -/

/-- How a restart goes that begins when a session is handled in the state `v`. -/
structure Conducted (config : Config) (p : Nat) (v : Vigil) (r : Restart) : Prop where
  /-- The old schedule is given up. -/
  cancelled : v.traffic.feed.isPolling = true ∧ (v.step .handled).traffic.feed.schedule = none
  beside : ∀ o ∈ r.beside, o.IsSide
  /-- One fetch is issued before the feed is polling again, and it is that of the restart. -/
  once : (v.step .handled).traffic.issued ((v.step .handled).happened r.occurrences) = [r.reply]
  immediate : (v.run (.handled :: r.before)).traffic.feed.now = v.traffic.feed.now
  /-- The token is that of the session that the look of the restart gave, or a later one. -/
  request : (v.run (.handled :: r.before)).requests config (.asked r.reply) =
    (prepared config
      (inForce (v.run (.handled :: r.early)).store.held (r.content :: contents r.mid)).token
      (.get Family.incident.listing)).toOption.toList
  /-- Fetches of the old schedule may send their requests meanwhile, and there are no new ones. -/
  leftover : r.occurrences.countP Occurrence.isRequested +
    (v.run (.handled :: r.occurrences)).outstanding = v.outstanding
  replied : (v.run (.handled :: r.occurrences)).traffic.ending? (.answered 0) = some r.reply.1
  completed : (v.run (.handled :: r.occurrences)).traffic.feed.now =
    v.traffic.feed.now + r.reply.2
  /-- The next schedule counts from the reply, whatever that is. -/
  rephased : (v.run (.handled :: (r.occurrences ++ [.answered]))).traffic.feed.schedule =
    some ⟨v.traffic.feed.now + r.reply.2 + p, p⟩

/-- The happenings of a restart before its reply. -/
theorem exists_happened (hvalid : v.Valid r.occurrences) (hbeside : ∀ o ∈ r.beside, o.IsSide) :
    ∃ hs hs', v.happened r.occurrences = hs ++ .asked r.reply :: hs' ∧
      (∀ h ∈ hs, h.IsBackground) ∧ ∀ h ∈ hs', h.IsBackground := by
  obtain ⟨hsides, hlate⟩ := List.forall_mem_append.1 hbeside
  obtain ⟨hearly, hmid⟩ := List.forall_mem_append.1 hsides
  obtain ⟨hbefore, -, hvlate⟩ := valid_append_iff.1 hvalid
  obtain ⟨hvearly, -, hvmid⟩ := valid_append_iff.1 hbefore
  refine ⟨v.happened r.before, _, collect_append happenings v _ _, ?_,
    happened_of_side hvlate hlate⟩
  have hsplit : v.happened r.before = v.happened r.early ++
      ((v.run r.early).step (.synced r.content)).happened r.mid :=
    collect_append happenings v _ _
  rw [hsplit]
  exact List.forall_mem_append.2 ⟨happened_of_side hvearly hearly, happened_of_side hvmid hmid⟩

theorem answered_not_mem_occurrences (hbeside : ∀ o ∈ r.beside, o.IsSide) :
    .answered ∉ r.occurrences := by
  have hnone : .answered ∉ r.beside := fun hmem => hbeside _ hmem
  simpa [Restart.occurrences, Restart.before, Restart.beside] using hnone

theorem not_mem_of_background {hs : List Happening} (hback : ∀ h ∈ hs, h.IsBackground) :
    .scheduled ∉ hs :=
  fun hmem => hback _ hmem

/-- A feed that has no schedule issues no fetch of its own before the reply. -/
theorem issued_occurrences (hstopped : v.traffic.feed.isPolling = false)
    (hvalid : v.Valid r.occurrences) (hbeside : ∀ o ∈ r.beside, o.IsSide) :
    v.traffic.issued (v.happened r.occurrences) = [r.reply] := by
  obtain ⟨hs, hs', hhappened, hback, hback'⟩ := exists_happened hvalid hbeside
  have hnone : .scheduled ∉ v.happened r.occurrences := by
    rw [hhappened]
    simp [not_mem_of_background hback, not_mem_of_background hback']
  have hasks : Traffic.asks (hs ++ .asked r.reply :: hs') =
      Traffic.asks hs ++ (r.reply :: Traffic.asks hs') := by
    simp [Traffic.asks]
  rw [(Traffic.issued_of_stopped hstopped hnone).2, hhappened, hasks,
    Feed.asks_of_background hback, Feed.asks_of_background hback']
  rfl

/-- Until the request is sent no time passes. -/
theorem now_before (h : v.Sound p) (hphase : v.phase = .stopped) (hvalid : v.Valid r.before)
    (hearly : ∀ o ∈ r.early, o.IsSide) (hmid : ∀ o ∈ r.mid, o.IsSide) :
    (v.run r.before).traffic.feed.now = v.traffic.feed.now := by
  obtain ⟨hvearly, hsynced, hvmid⟩ := valid_append_iff.1 hvalid
  have hsound := h.run hvearly
  have hfirst := now_run_of_side h (by simp [hphase, Phase.Awaits]) hvearly hearly
  have hsecond := now_run_of_side (hsound.step hsynced) (by simp [Phase.Awaits]) hvmid hmid
  rw [Restart.before, run_append, run_cons, hsecond]
  exact hfirst

/-- The fetch of the restart is the one that is awaited in the end. -/
theorem awaited_occurrences (h : v.Sound p) (hvalid : v.Valid r.occurrences)
    (hlate : ∀ o ∈ r.late, o.IsSide) :
    (v.run r.occurrences).traffic.awaited =
      [⟨(v.run r.before).traffic.feed.now + r.reply.2, r.reply.1⟩] := by
  obtain ⟨hbefore, hasked, hvlate⟩ := valid_append_iff.1 hvalid
  have hnone := (h.run hbefore).awaited_nil (by rw [Admits] at hasked; simp [hasked])
  rw [Restart.occurrences, run_append, run_cons, traffic_run,
    Traffic.awaited_run_of_background (happened_of_side hvlate hlate), traffic_step]
  simp [happenings, Traffic.step, Traffic.ending?, Traffic.prepare, hnone]

/-- A reply makes a schedule that counts from it. -/
theorem armed_answered (h : v.Sound p) (hadmits : v.Admits .answered) :
    (v.step .answered).traffic.Armed (v.traffic.feed.now + p) p := by
  have hstopped := h.not_polling (by simp [hadmits.1])
  obtain ⟨-, hnow, hinterval⟩ := v.traffic.feed_step (.answered 0)
  have hperiod : (v.traffic.step (.answered 0)).feed.interval = p :=
    hinterval.trans h.paced.1
  have hmade : (v.step .answered).traffic = (v.traffic.step (.answered 0)).step .scheduled := by
    simp [traffic_step, happenings, hstopped]
  have harmed := Traffic.armed_of_scheduled (v.traffic.step (.answered 0))
  rw [hperiod, hnow] at harmed
  rw [hmade]
  exact harmed

theorem conducted_of_valid (config : Config) (h : v.Sound p)
    (hvalid : v.Valid (.handled :: (r.occurrences ++ [.answered])))
    (hbeside : ∀ o ∈ r.beside, o.IsSide) : Conducted config p v r := by
  obtain ⟨hhandled, hrest⟩ := hvalid
  obtain ⟨hoccurrences, hanswered, -⟩ := valid_append_iff.1 hrest
  obtain ⟨hbefore, -, -⟩ := valid_append_iff.1 hoccurrences
  obtain ⟨hsides, hlate⟩ := List.forall_mem_append.1 hbeside
  obtain ⟨hearly, hmid⟩ := List.forall_mem_append.1 hsides
  have hstopped := h.step hhandled
  have hnow := now_before hstopped (phase_handled v) hbefore hearly hmid
  have hawaited := awaited_occurrences hstopped hoccurrences hlate
  have hdue : (v.traffic.feed.now + r.reply.2) =
      ((v.step .handled).run r.occurrences).traffic.feed.now := by
    have htimely := hanswered.2
    rw [Traffic.Timely, hawaited, hnow] at htimely
    exact Option.some.inj htimely
  obtain ⟨path, hfile⟩ : ∃ path, v.store.file = some path := by
    rw [← Option.ne_none_iff_exists']
    exact fun hnone => hhandled.2 (h.memory hnone)
  refine ⟨⟨?_, rfl⟩, hbeside, ?_, hnow, ?_, ?_, ?_, hdue.symm, ?_⟩
  · simp [h.polling, hhandled.1]
  · exact issued_occurrences (hstopped.not_polling (by simp)) hoccurrences hbeside
  · have hheld : (v.run (.handled :: r.before)).store.held =
        inForce (v.run (.handled :: r.early)).store.held (r.content :: contents r.mid) := by
      have hsplit : v.run (.handled :: r.before) =
          (v.run (.handled :: r.early)).run (.synced r.content :: r.mid) :=
        run_append (v.step .handled) r.early (.synced r.content :: r.mid)
      rw [hsplit, held_run ((file_run v _).trans hfile)]
      rfl
    rw [requests, hheld]
  · have hsent := requested_add_outstanding hoccurrences
    rw [countP_isTick_of_stopped hstopped (by simp) hoccurrences
      (answered_not_mem_occurrences hbeside)] at hsent
    exact hsent
  · rw [run_cons, Traffic.ending?, hawaited]
    rfl
  · rw [run_cons, run_append, hdue]
    exact (armed_answered (hstopped.run hoccurrences) hanswered).schedule

/-! ### Progress -/

/-- The loop is on its way to a reply, if the file has this content and the server gives this
reply. -/
def Occurrence.IsWay (content : FileContent) (reply : Reply) : Occurrence → Prop
  | .synced found => found = content
  | .asked found => found = reply
  | .background (.passed _) => True
  | _ => False

theorem exists_way_of_fetching (h : v.Sound p) (hphase : v.phase = .fetching)
    (content : FileContent) (reply : Reply) :
    ∃ way : List Occurrence, (∀ o ∈ way, o.IsWay content reply) ∧ v.Valid (way ++ [.answered]) := by
  obtain ⟨fl, hfl⟩ := List.length_eq_one_iff.1 (by simpa [hphase] using h.awaited)
  have hahead : v.traffic.feed.now ≤ fl.due := h.ahead fl (by simp [hfl])
  have hstopped := h.not_polling (by simp [hphase])
  have hprompt : v.traffic.Prompt (.passed fl.due) := by
    intro next htick
    rw [Traffic.isPolling_of_nextTick? htick] at hstopped
    cases hstopped
  have hallows : v.Allows (.passed fl.due) := by
    simp [Allows, hphase, hfl, Phase.Awaits]
  refine ⟨[.background (.passed fl.due)], by simp [Occurrence.IsWay], ?_, ⟨hphase, ?_⟩, trivial⟩
  · exact ⟨trivial, hahead, hprompt, hallows⟩
  · show (v.traffic.awaited)[0]?.map Flight.due = some fl.due
    simp [hfl]

theorem exists_way_of_synced (h : v.Sound p) (hphase : v.phase = .synced) (content : FileContent)
    (reply : Reply) :
    ∃ way : List Occurrence, (∀ o ∈ way, o.IsWay content reply) ∧ v.Valid (way ++ [.answered]) := by
  have hadmits : v.Admits (.asked reply) := hphase
  obtain ⟨way, hway, hvalid⟩ :=
    exists_way_of_fetching (h.step hadmits) (phase_asked v reply) content reply
  exact ⟨.asked reply :: way, List.forall_mem_cons.2 ⟨rfl, hway⟩, hadmits, hvalid⟩

/-- A restart under way can be brought to its end, whatever the file and the server say. -/
theorem exists_way (h : v.Sound p) (hphase : v.phase ≠ .waiting) (content : FileContent)
    (reply : Reply) :
    ∃ way : List Occurrence, (∀ o ∈ way, o.IsWay content reply) ∧ v.Valid (way ++ [.answered]) := by
  cases hnow : v.phase with
  | waiting => exact absurd hnow hphase
  | fetching => exact exists_way_of_fetching h hnow content reply
  | synced => exact exists_way_of_synced h hnow content reply
  | stopped =>
    have hadmits : v.Admits (.synced content) := hnow
    obtain ⟨way, hway, hvalid⟩ :=
      exists_way_of_synced (h.step hadmits) (phase_synced v content) content reply
    exact ⟨.synced content :: way, List.forall_mem_cons.2 ⟨rfl, hway⟩, hadmits, hvalid⟩

/-! ## Between restarts -/

theorem switchless_of_waiting (hphase : v.phase = .waiting) (hvalid : v.Valid os)
    (hhandled : .handled ∉ os) : ∀ h ∈ v.happened os, ¬h.IsSwitch := by
  induction os generalizing v with
  | nil => exact nofun
  | cons o os ih =>
    obtain ⟨hadmits, hrest⟩ := hvalid
    obtain ⟨ho, hos⟩ := List.ne_and_not_mem_of_not_mem_cons hhandled
    by_cases hside : o.IsSide
    · have hback := background_of_side hadmits hside
      have hlater := ih ((phase_step_of_side hside).trans hphase) hrest hos
      refine List.forall_mem_append.2 ⟨fun h hmem => ?_, hlater⟩
      have hbackground := hback h hmem
      cases h with
      | scheduled => exact hbackground.elim
      | stopped => exact hbackground.elim
      | _ => exact id
    · rcases (turn_of_admits hadmits hside).2.2.2 hphase with rfl | rfl
      · exact ih hphase hrest hos
      · exact absurd rfl ho

/-- From the reply on the schedule ticks once a period, until the next restart. -/
theorem ticks_answered (hp : 0 < p) (h : v.Sound p) (hvalid : v.Valid (.answered :: os))
    (hhandled : .handled ∉ os) :
    ∃ k, (v.step .answered).traffic.ticks ((v.step .answered).happened os) =
      (List.range k).map fun j => v.traffic.feed.now + (j + 1) * p := by
  obtain ⟨hadmits, hrest⟩ := hvalid
  have honTime := (h.step hadmits).onTime_happened hrest
  have hkept := switchless_of_waiting (phase_answered v) hrest hhandled
  obtain ⟨k, hticks, -⟩ := Traffic.ticks_of_schedule hp (armed_answered h hadmits) honTime hkept
  refine ⟨k, hticks.trans (List.map_congr_left fun j _ => ?_)⟩
  rw [Nat.succ_mul]
  omega

end Vigil

end AlertConsole
