import AlertConsole.Proofs.Dialogue
import AlertConsole.Proofs.Feed.Advance
import Mathlib.Data.List.Basic

/-!
# What a feed deletes

The feed asks the server to delete an incident only when it is told to resolve it, and then that one
incident once (`deletions_of_resolve`).
-/

namespace AlertConsole.Feed

/-- The incidents whose deletion is asked for in a log. -/
def deletions (log : List (Exchange Link)) : List String :=
  log.filterMap fun
    | ⟨.delete key, _⟩ => some key
    | _ => none

def IsDelete : Question → Prop
  | .delete _ => True
  | _ => False

theorem deletions_append (log log' : List (Exchange Link)) :
    deletions (log ++ log') = deletions log ++ deletions log' :=
  List.filterMap_append

theorem deletions_of_never {log : List (Exchange Link)} (h : ∀ e ∈ log, ¬IsDelete e.1) :
    deletions log = [] := by
  rw [deletions, List.filterMap_eq_nil_iff]
  intro e he
  have hquestion := h e he
  rcases e with ⟨_ | key | event, r⟩
  · rfl
  · exact absurd trivial hquestion
  · rfl

theorem never_reportFailure {α : Type} (event : ApiError → Event) (outcome : Except ApiError α) :
    (reportFailure event outcome).Never IsDelete := by
  rcases outcome with cause | a
  · exact Dialogue.never_question (I := Link) id
  · trivial

theorem never_advance (f : Feed) (limit : Nat) : (f.advance limit).Never IsDelete := by
  induction f using advance.induct limit with
  | case1 f hmoment =>
    rw [advance_of_quiet hmoment]
    trivial
  | case2 f time hmoment ih =>
    rw [advance_of_tick hmoment]
    exact ⟨id, ih⟩
  | case3 f fl rest hmoment ih =>
    rw [advance_of_landing hmoment]
    exact (never_reportFailure _ _).bind fun _ => ih

theorem never_refresh (f : Feed) : f.refresh.Never IsDelete := by
  refine (Dialogue.never_question (I := Link) id).bind fun reply => ?_
  exact (never_advance f _).bind fun _ => trivial

theorem never_start (f : Feed) : f.start.Never IsDelete := by
  refine (never_refresh f).bind fun r => (never_reportFailure _ _).bind fun _ => ?_
  split
  · trivial
  · exact (Dialogue.never_question (I := Link) id).bind fun _ => trivial

theorem never_stop (f : Feed) : f.stop.Never IsDelete := by
  unfold stop
  by_cases hpolling : f.isPolling
  · rw [if_pos hpolling]
    exact (Dialogue.never_question (I := Link) id).bind fun _ => trivial
  · rw [if_neg hpolling]
    trivial

theorem deletions_of_resolve {f : Feed} {key : String} {log : List (Exchange Link)}
    {r : Except ApiError Unit × Feed} (h : (f.resolve key).Runs log r) : deletions log = [key] := by
  unfold resolve at h
  obtain ⟨outcome, asked, rest, rfl, hdelete, hrest⟩ := Dialogue.runs_bind_iff.1 h
  rw [Dialogue.runs_question_iff.1 hdelete]
  suffices hnone : deletions rest = [] by
    rw [deletions_append, hnone]
    rfl
  rcases outcome with cause | ⟨⟩
  · rw [(Dialogue.runs_done_iff.1 hrest).1]
    rfl
  · refine deletions_of_never (hrest.never ?_)
    refine (Dialogue.never_question (I := Link) id).bind fun _ => ?_
    exact (never_refresh f).bind fun _ => (never_reportFailure _ _).bind fun _ => trivial

end AlertConsole.Feed
