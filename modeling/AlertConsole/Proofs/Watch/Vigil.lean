import AlertConsole.Proofs.Console.Calls
import AlertConsole.Proofs.Feed.Cadence

/-!
# The loop of a watch

A `Vigil` is a watch at work: its feed with what happens to it, the session store that all of its
requests share, and where its loop stands. An `Occurrence` is whatever comes next, and the
occurrences come in any order that `Admits` allows: at any point of a restart, fetches that the
schedule has issued look at the session file, which may hold anything by then, send their requests,
and land. Each fetch does so once (`requested_add_outstanding`).
-/

namespace AlertConsole

open Http (Message)
open Http.Client (prepared)

/-! ## Looks at the session file -/

namespace SessionStore

variable {s : SessionStore}

/-- The store after a look at its file, if it has one. -/
def looked (s : SessionStore) (content : FileContent) : SessionStore :=
  (s.reread [content]).1

theorem looked_of_memory (hfile : s.file = none) (content : FileContent) :
    s.looked content = s := by
  simp [looked, reread, hfile]

theorem looked_of_file {path : String} (hfile : s.file = some path) (content : FileContent) :
    s.looked content = s.learned content := by
  simp [looked, reread, hfile]

theorem file_looked (s : SessionStore) (content : FileContent) :
    (s.looked content).file = s.file := by
  cases hfile : s.file with
  | none => rw [looked_of_memory hfile, hfile]
  | some path => rw [looked_of_file hfile, file_learned, hfile]

theorem held_looked (s : SessionStore) (content : FileContent) :
    (s.looked content).held =
      if s.file.isSome then (sessionOf? content).getD s.held else s.held := by
  cases hfile : s.file with
  | none => rw [looked_of_memory hfile]; rfl
  | some path => rw [looked_of_file hfile, held_learned]; rfl

/-- A session is published exactly when it is new. -/
theorem publications_looked (s : SessionStore) (content : FileContent) :
    (s.looked content).publications =
      s.publications + if (s.looked content).held = s.held then 0 else 1 := by
  cases hfile : s.file with
  | none => simp [looked_of_memory hfile]
  | some path => rw [looked_of_file hfile, publications_learned]

theorem publications_le_looked (s : SessionStore) (content : FileContent) :
    s.publications ≤ (s.looked content).publications := by
  rw [publications_looked]
  exact Nat.le_add_right _ _

end SessionStore

/-! ## States -/

/-- Where the loop stands. -/
inductive Vigil.Phase where
  /-- The feed is to be started. -/
  | stopped
  /-- The start has looked at the session file, and is to send its request. -/
  | synced
  /-- The fetch of the start is under way. -/
  | fetching
  /-- The loop waits for a publication. -/
  | waiting
  deriving DecidableEq

structure Vigil where
  traffic : Traffic
  store : SessionStore
  phase : Vigil.Phase
  /-- The fetches of the schedule that have yet to look at the session file. -/
  unlooked : Nat
  /-- The fetches of the schedule that have looked, and have yet to send their requests. -/
  unsent : Nat
  /-- The publications of lists and of sessions that have been dealt with. -/
  listsSeen : Nat
  sessionsSeen : Nat

namespace Vigil

/-- A watch of a feed that has not been started. -/
def begun (interval : Nat) (store : SessionStore) : Vigil :=
  ⟨.idle interval, store, .stopped, 0, 0, 0, store.publications⟩

/-- The fetches of the schedule whose requests are to come. -/
def outstanding (v : Vigil) : Nat :=
  v.unlooked + v.unsent

end Vigil

/-! ## Occurrences -/

/-- The schedule issues a fetch. -/
def Happening.isTick : Happening → Bool
  | .ticked _ => true
  | _ => false

namespace Vigil

inductive Occurrence where
  /-- Time passes, the schedule ticks, or one of its fetches lands. -/
  | background (h : Happening)
  /-- A fetch of the schedule looks at the session file. -/
  | looked (content : FileContent)
  /-- A fetch of the schedule sends its request. -/
  | requested
  /-- The start looks at the session file. -/
  | synced (content : FileContent)
  /-- The start sends its request. -/
  | asked (reply : Reply)
  /-- The start gets its reply, and ends. -/
  | answered
  /-- The latest list is shown. -/
  | shown
  /-- A session that was published makes the loop stop the feed, to start it again. -/
  | handled

/-- The loop awaits something, so that time can pass. -/
def Phase.Awaits : Phase → Prop
  | .fetching => True
  | .waiting => True
  | _ => False

/-- Time passes only while the loop awaits something, and not beyond a reply that it awaits. A fetch
of the schedule lands only after a request was sent for it. -/
def Allows (v : Vigil) : Happening → Prop
  | .passed time => v.phase.Awaits ∧ ∀ fl ∈ v.traffic.awaited, time ≤ fl.due
  | .landed _ => v.outstanding < v.traffic.feed.inFlight.length
  | _ => True

/-- The occurrence may come now. -/
def Admits (v : Vigil) : Occurrence → Prop
  | .background h => h.IsBackground ∧ v.traffic.Timely h ∧ v.traffic.Prompt h ∧ v.Allows h
  | .looked _ => 0 < v.unlooked
  | .requested => 0 < v.unsent
  | .synced _ => v.phase = .stopped
  | .asked _ => v.phase = .synced
  | .answered => v.phase = .fetching ∧ v.traffic.Timely (.answered 0)
  | .shown => v.phase = .waiting ∧ v.traffic.feed.publications ≠ v.listsSeen
  | .handled => v.phase = .waiting ∧ v.store.publications ≠ v.sessionsSeen

/-- What an occurrence is for the feed. A start makes a schedule unless there is one. -/
def happenings (v : Vigil) : Occurrence → List Happening
  | .background h => [h]
  | .asked reply => [.asked reply]
  | .answered => .answered 0 :: if v.traffic.feed.isPolling then [] else [.scheduled]
  | .handled => [.stopped]
  | _ => []

def step (v : Vigil) (o : Occurrence) : Vigil :=
  let traffic := v.traffic.run (v.happenings o)
  match o with
  | .background h => { v with traffic, unlooked := v.unlooked + h.isTick.toNat }
  | .looked content =>
    { v with
      store := v.store.looked content
      unlooked := v.unlooked - 1
      unsent := v.unsent + 1 }
  | .requested => { v with unsent := v.unsent - 1 }
  | .synced content => { v with store := v.store.looked content, phase := .synced }
  | .asked _ => { v with traffic, phase := .fetching }
  | .answered => { v with traffic, phase := .waiting }
  | .shown => { v with listsSeen := v.traffic.feed.publications }
  | .handled => { v with traffic, phase := .stopped, sessionsSeen := v.store.publications }

/-- The requests that go out, made with the token that is held. -/
def requests (config : Config) (v : Vigil) : Occurrence → List Message
  | .requested =>
    (prepared config v.store.held.token (.get Family.incident.listing)).toOption.toList
  | .asked _ =>
    (prepared config v.store.held.token (.get Family.incident.listing)).toOption.toList
  | _ => []

/-- The list that is shown, with the number of its publication. -/
def showings (v : Vigil) : Occurrence → List (Nat × List Entry)
  | .shown => [(v.traffic.feed.publications, v.traffic.feed.incidents)]
  | _ => []

/-! ## Runs -/

def run (v : Vigil) (os : List Occurrence) : Vigil :=
  os.foldl step v

/-- Every occurrence comes when it may. -/
def Valid (v : Vigil) : List Occurrence → Prop
  | [] => True
  | o :: os => v.Admits o ∧ (v.step o).Valid os

/-- What the occurrences of a run bring, in this order. -/
def collect {α : Type} (f : Vigil → Occurrence → List α) (v : Vigil) : List Occurrence → List α
  | [] => []
  | o :: os => f v o ++ (v.step o).collect f os

variable {p : Nat} {v : Vigil} {o : Occurrence} {os os' : List Occurrence}

@[simp] theorem run_nil (v : Vigil) : v.run [] = v := rfl

@[simp] theorem run_cons (v : Vigil) (o : Occurrence) (os : List Occurrence) :
    v.run (o :: os) = (v.step o).run os := rfl

theorem run_append (v : Vigil) (os os' : List Occurrence) :
    v.run (os ++ os') = (v.run os).run os' := by
  simp [run]

theorem valid_append_iff : v.Valid (os ++ os') ↔ v.Valid os ∧ (v.run os).Valid os' := by
  induction os generalizing v with
  | nil => simp [Valid]
  | cons o os ih => simp [Valid, ih, and_assoc]

theorem collect_append {α : Type} (f : Vigil → Occurrence → List α) (v : Vigil)
    (os os' : List Occurrence) :
    v.collect f (os ++ os') = v.collect f os ++ (v.run os).collect f os' := by
  induction os generalizing v with
  | nil => rfl
  | cons o os ih => simp [collect, ih]

/-- What happens to the feed in a run. -/
def happened (v : Vigil) (os : List Occurrence) : List Happening :=
  v.collect happenings os

theorem traffic_step (v : Vigil) (o : Occurrence) :
    (v.step o).traffic = v.traffic.run (v.happenings o) := by
  cases o <;> rfl

theorem traffic_run (v : Vigil) (os : List Occurrence) :
    (v.run os).traffic = v.traffic.run (v.happened os) := by
  induction os generalizing v with
  | nil => rfl
  | cons o os ih =>
    rw [run_cons, ih, traffic_step, ← Traffic.run_append, happened, happened, collect]

@[simp] theorem phase_synced (v : Vigil) (content : FileContent) :
    (v.step (.synced content)).phase = .synced := rfl

@[simp] theorem phase_asked (v : Vigil) (reply : Reply) :
    (v.step (.asked reply)).phase = .fetching := rfl

@[simp] theorem phase_answered (v : Vigil) : (v.step .answered).phase = .waiting := rfl

@[simp] theorem phase_handled (v : Vigil) : (v.step .handled).phase = .stopped := rfl

theorem publications_le_step (v : Vigil) (o : Occurrence) :
    v.traffic.feed.publications ≤ (v.step o).traffic.feed.publications := by
  rw [traffic_step, Traffic.publications_run]
  exact Nat.le_add_right _ _

/-! ## Occurrences beside the loop -/

/-- Nothing that the loop does. -/
def Occurrence.IsSide : Occurrence → Prop
  | .background _ => True
  | .looked _ => True
  | .requested => True
  | _ => False

theorem phase_step_of_side (hside : o.IsSide) : (v.step o).phase = v.phase := by
  cases o with
  | background h => rfl
  | looked content => rfl
  | requested => rfl
  | _ => exact hside.elim

theorem phase_run_of_side (hside : ∀ o ∈ os, o.IsSide) : (v.run os).phase = v.phase := by
  induction os generalizing v with
  | nil => rfl
  | cons o os ih =>
    obtain ⟨ho, hos⟩ := List.forall_mem_cons.1 hside
    rw [run_cons, ih hos, phase_step_of_side ho]

theorem background_of_side (hadmits : v.Admits o) (hside : o.IsSide) :
    ∀ h ∈ v.happenings o, h.IsBackground := by
  cases o with
  | background h => exact List.forall_mem_singleton.2 hadmits.1
  | looked content => exact nofun
  | requested => exact nofun
  | _ => exact hside.elim

theorem happened_of_side (hvalid : v.Valid os) (hside : ∀ o ∈ os, o.IsSide) :
    ∀ h ∈ v.happened os, h.IsBackground := by
  induction os generalizing v with
  | nil => exact nofun
  | cons o os ih =>
    obtain ⟨ho, hos⟩ := List.forall_mem_cons.1 hside
    exact List.forall_mem_append.2 ⟨background_of_side hvalid.1 ho, ih hvalid.2 hos⟩

/-! ## Fetches of the schedule -/

def Occurrence.isTick : Occurrence → Bool
  | .background h => h.isTick
  | _ => false

def Occurrence.isRequested : Occurrence → Bool
  | .requested => true
  | _ => false

theorem requested_add_outstanding_step (hadmits : v.Admits o) :
    o.isRequested.toNat + (v.step o).outstanding = v.outstanding + o.isTick.toNat := by
  cases o with
  | background h =>
    show 0 + (v.unlooked + h.isTick.toNat + v.unsent) = v.unlooked + v.unsent + h.isTick.toNat
    omega
  | looked content =>
    have hunlooked : 0 < v.unlooked := hadmits
    show 0 + (v.unlooked - 1 + (v.unsent + 1)) = v.unlooked + v.unsent + 0
    omega
  | requested =>
    have hunsent : 0 < v.unsent := hadmits
    show 1 + (v.unlooked + (v.unsent - 1)) = v.unlooked + v.unsent + 0
    omega
  | _ => exact Nat.zero_add _

/-- The schedule sends one request for each of its ticks, sooner or later. -/
theorem requested_add_outstanding (hvalid : v.Valid os) :
    os.countP Occurrence.isRequested + (v.run os).outstanding =
      v.outstanding + os.countP Occurrence.isTick := by
  induction os generalizing v with
  | nil => exact Nat.zero_add _
  | cons o os ih =>
    have hfirst := requested_add_outstanding_step hvalid.1
    have hrest := ih hvalid.2
    simp only [List.countP_cons, run_cons]
    cases hrequested : o.isRequested <;> cases htick : o.isTick <;>
      simp only [hrequested, htick, Bool.toNat_true, Bool.toNat_false, if_true,
        Bool.false_eq_true, if_false] at hfirst ⊢ <;> omega

end Vigil

end AlertConsole
