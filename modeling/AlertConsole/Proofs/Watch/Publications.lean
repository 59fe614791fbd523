import AlertConsole.Proofs.Watch.Invariant

/-!
# What a watch makes of publications

Lists are shown in the order of their publications, each of them as the latest one of its moment
(`showings_of_admits`, `showings_lt`). A session that a look finds is published if it is new, and
then handled (`admits_handled`); a session file that stays the same makes for two more restarts at
most (`restarts_le`).
-/

namespace AlertConsole

open SessionStore (sessionOf?)

namespace Vigil

variable {p : Nat} {v : Vigil} {o : Occurrence} {os : List Occurrence}

/-! ## Lists that are shown -/

/-- A list that is shown is the last one that was published, and had not been shown. -/
theorem showings_of_admits {store : SessionStore}
    (hvalid : (begun p store).Valid (os ++ [.shown])) :
    ∃ entries,
      ((Traffic.idle p).lists ((begun p store).happened os)).getLast? = some entries ∧
      ((begun p store).run os).showings .shown =
        [(((Traffic.idle p).lists ((begun p store).happened os)).length, entries)] := by
  obtain ⟨hbefore, hadmits, -⟩ := valid_append_iff.1 hvalid
  have hsound := (sound_begun p store).run hbefore
  have htraffic : ((begun p store).run os).traffic =
      (Traffic.idle p).run ((begun p store).happened os) :=
    traffic_run _ os
  have hpublications := Traffic.publications_idle_run p ((begun p store).happened os)
  have hincidents := Traffic.incidents_run (.idle p) ((begun p store).happened os)
  rw [← htraffic] at hpublications hincidents
  cases hlast : ((Traffic.idle p).lists ((begun p store).happened os)).getLast? with
  | none =>
    rw [List.getLast?_eq_none_iff.1 hlast] at hpublications
    have hseen := hsound.lists
    have hnew := hadmits.2
    simp only [List.length_nil] at hpublications
    omega
  | some entries =>
    refine ⟨entries, rfl, ?_⟩
    rw [hlast] at hincidents
    rw [showings, hpublications, hincidents]
    rfl

/-- Later publications are shown later, and none is shown twice. -/
theorem showings_lt (h : v.Sound p) (hvalid : v.Valid os) :
    (∀ shown ∈ v.collect showings os, v.listsSeen < shown.1) ∧
      (v.collect showings os).Pairwise (·.1 < ·.1) := by
  induction os generalizing v with
  | nil => exact ⟨nofun, .nil⟩
  | cons o os ih =>
    obtain ⟨hadmits, hrest⟩ := hvalid
    obtain ⟨hlater, hpairwise⟩ := ih (h.step hadmits) hrest
    cases o with
    | shown =>
      have hnew : v.listsSeen < v.traffic.feed.publications :=
        Nat.lt_of_le_of_ne h.lists (Ne.symm hadmits.2)
      refine ⟨List.forall_mem_cons.2 ⟨hnew, fun shown hshown => ?_⟩, .cons hlater hpairwise⟩
      exact Nat.lt_trans hnew (hlater shown hshown)
    | _ => exact ⟨hlater, hpairwise⟩

/-! ## Sessions that are handled -/

/-- A session that a look finds while the loop waits can be handled at once if it is new. -/
theorem admits_handled (h : v.Sound p) (hphase : v.phase = .waiting) {path : String}
    (hfile : v.store.file = some path) {content : FileContent} {session : Session}
    (hsession : sessionOf? content = some session) (hnew : session ≠ v.store.held) :
    (v.step (.looked content)).store.held = session ∧
      (v.step (.looked content)).Admits .handled := by
  have hheld : (v.store.looked content).held = session := by
    simp [SessionStore.held_looked, hfile, hsession]
  have hseen := h.sessions
  have hpublished := v.store.publications_looked content
  rw [hheld, if_neg hnew] at hpublished
  refine ⟨hheld, hphase, ?_⟩
  show (v.store.looked content).publications ≠ v.sessionsSeen
  omega

/-! ## How many restarts there are -/

def Occurrence.isHandled : Occurrence → Bool
  | .handled => true
  | _ => false

/-- A look that finds another session than that of the content. -/
def Occurrence.isStale (content : FileContent) : Occurrence → Bool
  | .looked found => sessionOf? found ≠ sessionOf? content
  | .synced found => sessionOf? found ≠ sessionOf? content
  | _ => false

end Vigil

namespace SessionStore

variable {s : SessionStore} {seen : Nat} {content found : FileContent}

/-- After a look the same content is nothing new. -/
theorem held_looked_looked (hfound : sessionOf? found = sessionOf? content) :
    ((s.looked found).looked content).held = (s.looked found).held := by
  simp only [held_looked, file_looked, hfound]
  cases s.file <;> cases sessionOf? content <;> rfl

/-- The restarts that are to come if the file holds this content for good: one for a session that
was published, and one for a session that is to be. -/
def unsettled (s : SessionStore) (seen : Nat) (content : FileContent) : Nat :=
  (if s.publications = seen then 0 else 1) + if (s.looked content).held = s.held then 0 else 1

theorem unsettled_le (s : SessionStore) (seen : Nat) (content : FileContent) :
    s.unsettled seen content ≤ 2 := by
  unfold unsettled
  split <;> split <;> omega

/-- A look unsettles no more than it settles, unless it is stale. -/
theorem unsettled_looked (hfound : sessionOf? found = sessionOf? content) :
    (s.looked found).unsettled seen content ≤ s.unsettled seen content := by
  have hsettled := held_looked_looked (s := s) hfound
  have hsame : (s.looked found).held = (s.looked content).held := by
    simp only [held_looked, hfound]
  have hpublished := s.publications_looked found
  by_cases hheld : (s.looked content).held = s.held
  · have hkept : (s.looked found).held = s.held := hsame.trans hheld
    simp [unsettled, hsettled, hpublished, hkept, hheld]
  · simp only [unsettled, hsettled, hheld, if_true, if_false]
    split <;> omega

theorem unsettled_handled (hnew : s.publications ≠ seen) :
    1 + s.unsettled s.publications content = s.unsettled seen content := by
  simp [unsettled, hnew]

end SessionStore

namespace Vigil

variable {v : Vigil} {o : Occurrence} {os : List Occurrence} {content : FileContent}

theorem unsettled_step (hadmits : v.Admits o) (content : FileContent) :
    o.isHandled.toNat + (v.step o).store.unsettled (v.step o).sessionsSeen content ≤
      v.store.unsettled v.sessionsSeen content + 2 * (o.isStale content).toNat := by
  have hlooked : ∀ found, (v.store.looked found).unsettled v.sessionsSeen content ≤
      v.store.unsettled v.sessionsSeen content +
        2 * (decide (sessionOf? found ≠ sessionOf? content)).toNat := by
    intro found
    by_cases hfound : sessionOf? found = sessionOf? content
    · exact Nat.le_trans (SessionStore.unsettled_looked hfound) (Nat.le_add_right _ _)
    · have htwo := (v.store.looked found).unsettled_le v.sessionsSeen content
      simp only [ne_eq, hfound, not_false_eq_true, decide_true, Bool.toNat_true]
      omega
  cases o with
  | looked found => exact (Nat.zero_add _).trans_le (hlooked found)
  | synced found => exact (Nat.zero_add _).trans_le (hlooked found)
  | handled => exact (SessionStore.unsettled_handled hadmits.2).le
  | _ => exact (Nat.zero_add _).le

/-- Once the file stays as it is, the restarts that follow are two, and two more for each stale
look. -/
theorem restarts_le (hvalid : v.Valid os) (content : FileContent) :
    os.countP Occurrence.isHandled ≤ 2 * os.countP (Occurrence.isStale content) + 2 := by
  have hbound : os.countP Occurrence.isHandled +
      (v.run os).store.unsettled (v.run os).sessionsSeen content ≤
        v.store.unsettled v.sessionsSeen content + 2 * os.countP (Occurrence.isStale content) := by
    induction os generalizing v with
    | nil => simp
    | cons o os ih =>
      have hfirst := unsettled_step hvalid.1 content
      have hrest := ih hvalid.2
      simp only [List.countP_cons, run_cons]
      cases hhandled : o.isHandled <;> cases hstale : o.isStale content <;>
        simp [hhandled, hstale] at hfirst ⊢ <;> omega
  have htwo := v.store.unsettled_le v.sessionsSeen content
  omega

end Vigil

end AlertConsole
