import AlertConsole.Proofs.Viewer.Loop

/-!
# The cursor

A viewer takes over lists and moves its cursor up and down, in any order. From the empty viewer on
the cursor is `Valid`: it is on a row of the list, and on none only if there are no rows. A new list
takes it to wherever its incident is listed, or else to the first row; a move takes it one row on,
and leaves it where there is no further row (`cursor_follows_incident`). The live viewer changes its
cursor in no other way, so it is valid in every turn (`Dashboard.valid_of_plays`).
-/

namespace AlertConsole

namespace Viewer

/-! ## Valid cursors -/

/-- The cursor is on a row of the list, and on none only if there are no rows. -/
structure Valid (v : Viewer) : Prop where
  selected_eq_none_iff : v.selected = none ↔ v.incidents = []
  lt_length : ∀ index, v.selected = some index → index < v.incidents.length

theorem valid_empty : Valid empty :=
  ⟨iff_of_true rfl rfl, fun _ h => nomatch h⟩

/-- Only the list and the selection count. -/
theorem Valid.congr {v w : Viewer} (h : v.Valid) (hincidents : w.incidents = v.incidents)
    (hselected : w.selected = v.selected) : w.Valid := by
  refine ⟨?_, ?_⟩
  · rw [hincidents, hselected]
    exact h.selected_eq_none_iff
  · rw [hincidents, hselected]
    exact h.lt_length

theorem valid_of_selected {v : Viewer} {index : Nat} (hselected : v.selected = some index)
    (hlt : index < v.incidents.length) : v.Valid := by
  refine ⟨iff_of_false ?_ (List.ne_nil_of_length_pos (Nat.zero_lt_of_lt hlt)), ?_⟩
  · rw [hselected]
    exact Option.some_ne_none index
  · intro other hother
    rw [hselected, Option.some.injEq] at hother
    exact hother ▸ hlt

theorem valid_of_nil {v : Viewer} (hselected : v.selected = none) (hnil : v.incidents = []) :
    v.Valid := by
  refine ⟨iff_of_true hselected hnil, fun index h => ?_⟩
  rw [hselected] at h
  cases h

/-! ## Changes -/

inductive Change where
  | update (incidents : List Entry)
  | down
  | up

def changed (v : Viewer) : Change → Viewer
  | .update incidents => v.update incidents
  | .down => v.move 1
  | .up => v.move (-1)

/-- The viewer that changes, one after the other, make of the empty one. -/
def ofChanges (changes : List Change) : Viewer :=
  changes.foldl changed empty

/-- A list takes the cursor to wherever its incident is listed, and else to the first row. -/
structure Anchored (v : Viewer) (incidents : List Entry) (w : Viewer) : Prop where
  incidents_eq : w.incidents = incidents
  kept : ∀ key, v.selectedKey? = some key → key ∈ incidents.map Entry.key →
    w.selectedKey? = some key ∧ w.selected = some ((incidents.map Entry.key).idxOf key)
  lost : (∀ key, v.selectedKey? = some key → key ∉ incidents.map Entry.key) →
    w.selected = if incidents = [] then none else some 0

/-- The list stays, and a cursor goes from `index` to `next index`. -/
structure Moved (v : Viewer) (next : Nat → Nat) (w : Viewer) : Prop where
  incidents_eq : w.incidents = v.incidents
  selected_eq : w.selected = v.selected.map next

/-- Where a change takes the cursor: to its incident, or one row on if there is such a row. -/
def Follows (v : Viewer) : Change → Viewer → Prop
  | .update incidents, w => Anchored v incidents w
  | .down, w => Moved v (fun i => if i + 1 < v.incidents.length then i + 1 else i) w
  | .up, w => Moved v (fun i => if 0 < i then i - 1 else i) w

/-! ### New lists -/

theorem anchored_update (v : Viewer) (incidents : List Entry) :
    Anchored v incidents (v.update incidents) where
  incidents_eq := rfl
  kept _ hselected hlisted :=
    ⟨selectedKey?_update_of_mem hselected hlisted, selected_update_of_mem hselected hlisted⟩
  lost := selected_update_of_not_mem

theorem Anchored.valid {v w : Viewer} {incidents : List Entry} (h : Anchored v incidents w) :
    w.Valid := by
  by_cases hkept : ∃ key, v.selectedKey? = some key ∧ key ∈ incidents.map Entry.key
  · obtain ⟨key, hselected, hlisted⟩ := hkept
    refine valid_of_selected (h.kept key hselected hlisted).2 ?_
    rw [h.incidents_eq, ← List.length_map Entry.key]
    exact List.idxOf_lt_length_of_mem hlisted
  · have hselected := h.lost fun key hkey hlisted => hkept ⟨key, hkey, hlisted⟩
    by_cases hnil : incidents = []
    · rw [if_pos hnil] at hselected
      exact valid_of_nil hselected (h.incidents_eq.trans hnil)
    · rw [if_neg hnil] at hselected
      refine valid_of_selected hselected ?_
      rw [h.incidents_eq]
      exact List.length_pos_of_ne_nil hnil

/-! ### Moves -/

theorem moved_move {v : Viewer} (h : v.Valid) {delta : Int} {next : Nat → Nat}
    (hnext : ∀ index, index < v.incidents.length →
      shifted index delta (v.incidents.length - 1) = next index) : Moved v next (v.move delta) := by
  by_cases hnil : v.incidents = []
  · have hselected := h.selected_eq_none_iff.2 hnil
    rw [move, if_pos hnil]
    exact ⟨rfl, by rw [hselected, Option.map_none]⟩
  · rw [move, if_neg hnil]
    refine ⟨rfl, ?_⟩
    rcases hselected : v.selected with _ | index
    · exact absurd (h.selected_eq_none_iff.1 hselected) hnil
    · exact congrArg some (hnext index (h.lt_length index hselected))

theorem Moved.valid {v w : Viewer} {next : Nat → Nat} (hmoved : Moved v next w) (h : v.Valid)
    (hnext : ∀ index, index < v.incidents.length → next index < v.incidents.length) : w.Valid := by
  rcases hselected : v.selected with _ | index
  · refine h.congr hmoved.incidents_eq ?_
    rw [hmoved.selected_eq, hselected, Option.map_none]
  · refine valid_of_selected (by rw [hmoved.selected_eq, hselected, Option.map_some]) ?_
    rw [hmoved.incidents_eq]
    exact hnext index (h.lt_length index hselected)

/-! ### Runs of changes -/

theorem follows_changed {v : Viewer} (h : v.Valid) (change : Change) :
    v.Follows change (v.changed change) := by
  cases change with
  | update incidents => exact anchored_update v incidents
  | down =>
    refine moved_move h fun index hlt => ?_
    unfold shifted
    split <;> omega
  | up =>
    refine moved_move h fun index hlt => ?_
    unfold shifted
    split <;> omega

theorem Follows.valid {v w : Viewer} {change : Change} (hfollows : v.Follows change w)
    (h : v.Valid) : w.Valid := by
  cases change with
  | update incidents => exact Anchored.valid hfollows
  | down =>
    refine Moved.valid hfollows h fun index hlt => ?_
    split <;> omega
  | up =>
    refine Moved.valid hfollows h fun index hlt => ?_
    split <;> omega

theorem Valid.changed {v : Viewer} (h : v.Valid) (change : Change) : (v.changed change).Valid :=
  (follows_changed h change).valid h

theorem Valid.foldl {v : Viewer} (h : v.Valid) (changes : List Change) :
    (changes.foldl Viewer.changed v).Valid := by
  induction changes generalizing v with
  | nil => exact h
  | cons change rest ih => exact ih (h.changed change)

/-- Whatever lists come in and however the cursor is moved, it is valid, and the next change takes
it to its incident, or one row on. -/
theorem cursor_follows_incident (changes : List Change) :
    (ofChanges changes).Valid ∧
      ∀ change, (ofChanges changes).Follows change (ofChanges (changes ++ [change])) := by
  have hvalid : (ofChanges changes).Valid := valid_empty.foldl changes
  refine ⟨hvalid, fun change => ?_⟩
  have hnext : ofChanges (changes ++ [change]) = (ofChanges changes).changed change :=
    List.foldl_concat ..
  rw [hnext]
  exact follows_changed hvalid change

end Viewer

/-! ## The live viewer -/

namespace Dashboard

open Viewer (Valid)

theorem valid_takeUpdate {d : Dashboard} (h : d.viewer.Valid) : d.takeUpdate.viewer.Valid := by
  by_cases hseen : d.feed.publications = d.seen
  · rw [takeUpdate_of_seen hseen]
    exact h
  · rw [viewer_takeUpdate_of_unseen hseen]
    exact h.changed (.update d.feed.incidents)

theorem valid_of_togglePolling {d d' : Dashboard} {log : List (Exchange Feed.Link)}
    (h : d.viewer.Valid) (hruns : d.togglePolling.Runs log d') : d'.viewer.Valid := by
  unfold togglePolling at hruns
  split at hruns
  all_goals
    obtain ⟨_, _, _, -, -, hdone⟩ := Dialogue.runs_bind_iff.1 hruns
    rw [(Dialogue.runs_done_iff.1 hdone).2]
    exact h.congr rfl rfl

theorem valid_of_resolveSelected {d d' : Dashboard} {log : List (Exchange Feed.Link)}
    (h : d.viewer.Valid) (hruns : d.resolveSelected.Runs log d') : d'.viewer.Valid := by
  unfold resolveSelected at hruns
  split at hruns
  · rw [(Dialogue.runs_done_iff.1 hruns).2]
    exact h
  · obtain ⟨_, _, _, -, -, hdone⟩ := Dialogue.runs_bind_iff.1 hruns
    rw [(Dialogue.runs_done_iff.1 hdone).2]
    exact h.congr rfl rfl

theorem valid_of_press {d d' : Dashboard} {key : Key} {log : List (Exchange Feed.Link)}
    (h : d.viewer.Valid) (hruns : (d.press key).Runs log (some d')) : d'.viewer.Valid := by
  unfold press at hruns
  split at hruns
  case h_1 | h_2 => cases (Dialogue.runs_done_iff.1 hruns).2
  case h_3 | h_4 =>
    cases (Dialogue.runs_done_iff.1 hruns).2
    exact h.changed .down
  case h_5 | h_6 =>
    cases (Dialogue.runs_done_iff.1 hruns).2
    exact h.changed .up
  case h_7 =>
    obtain ⟨toggled, htoggle, heq⟩ := Dialogue.runs_map_iff.1 hruns
    cases heq
    exact valid_of_togglePolling h htoggle
  case h_8 =>
    obtain ⟨resolved, hresolve, heq⟩ := Dialogue.runs_map_iff.1 hruns
    cases heq
    exact valid_of_resolveSelected h hresolve
  case h_9 =>
    cases (Dialogue.runs_done_iff.1 hruns).2
    exact h

theorem valid_of_turn {d d' : Dashboard} {key : Option Key} {log : List (Exchange Feed.Link)}
    (h : d.viewer.Valid) (hruns : (d.turn key).Runs log (some d')) : d'.viewer.Valid := by
  have htaken := valid_takeUpdate h
  rcases key with _ | key
  · cases (Dialogue.runs_done_iff.1 hruns).2
    exact htaken
  · exact valid_of_press htaken hruns

theorem valid_of_loop {shown : Option Viewer} {d : Dashboard} {turns : List Turn}
    (h : Loop shown d turns) (hvalid : d.viewer.Valid) : ∀ t ∈ turns, t.dashboard.viewer.Valid := by
  induction h with
  | idle shown d => exact fun t ht => nomatch ht
  | quit hruns =>
    intro t ht
    obtain rfl := List.mem_singleton.1 ht
    exact hvalid
  | next loggedIn timeOffset height hruns _ ih =>
    intro t ht
    rcases List.mem_cons.1 ht with rfl | ht
    · exact hvalid
    · exact ih ((valid_of_turn (d := after _ _) hvalid hruns).congr rfl rfl) t ht

/-- The cursor of the live viewer is valid in every turn of every run. -/
theorem valid_of_plays {interval : Nat} {turns : List Turn} (h : Plays interval turns) :
    ∀ t ∈ turns, t.dashboard.viewer.Valid := by
  obtain ⟨log, d, hstart, hloop⟩ := h
  refine valid_of_loop hloop ?_
  obtain ⟨feed, _, _, -, -, hdone⟩ := Dialogue.runs_bind_iff.1 hstart
  rw [(Dialogue.runs_done_iff.1 hdone).2]
  exact Viewer.valid_empty.congr rfl rfl

end Dashboard

end AlertConsole
