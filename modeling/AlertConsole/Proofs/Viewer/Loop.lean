import AlertConsole.Viewer.Dashboard
import AlertConsole.Proofs.Feed.Deletions
import AlertConsole.Proofs.Feed.Quiet
import AlertConsole.Proofs.Viewer.Selection

/-!
# The loop of the viewer

Each turn of the dashboard begins with whatever has happened to the feed since the screen was drawn,
and ends with drawing it again. A list that came in meanwhile is taken over before the key is read,
and is drawn only afterwards: what is resolved is the incident that was shown, unless the new list
is `Replacing` it (`deletes_shown_iff`).
-/

namespace AlertConsole.Dashboard

/-! ## Turns -/

/-- The dashboard after some happenings to its feed. -/
def after (d : Dashboard) (hs : List Happening) : Dashboard :=
  { d with feed := (Traffic.run ⟨d.feed, []⟩ hs).feed }

/-- The dashboard after its screen is drawn. -/
def drawn (d : Dashboard) (loggedIn : Bool) (timeOffset : Int) (height : Nat) : Dashboard :=
  { d with viewer := (Screen.draw timeOffset height { d.viewer with loggedIn }).2 }

/-- A turn of the loop, with what came before it and what it asked for. -/
structure Turn where
  /-- The viewer as it was drawn last, if it was. -/
  shown : Option Viewer
  dashboard : Dashboard
  key : Option Key
  log : List (Exchange Feed.Link)

namespace Turn

/-- The key of the incident that is highlighted on the screen. -/
def shownKey? (t : Turn) : Option String :=
  t.shown.bind Viewer.selectedKey?

/-- A list has come in since the turn before, there are incidents in it, and the one that is
highlighted is not among them. -/
def Replacing (t : Turn) : Prop :=
  t.dashboard.feed.publications ≠ t.dashboard.seen ∧ t.dashboard.feed.incidents ≠ [] ∧
    ∀ key, t.shownKey? = some key → key ∉ t.dashboard.feed.incidents.map Entry.key

end Turn

/-- Turns that follow each other, from a dashboard whose screen shows `shown`. -/
inductive Loop : Option Viewer → Dashboard → List Turn → Prop where
  | idle (shown : Option Viewer) (d : Dashboard) : Loop shown d []
  | quit {shown : Option Viewer} {d : Dashboard} {hs : List Happening} {key : Option Key}
      {log : List (Exchange Feed.Link)} :
      ((d.after hs).turn key).Runs log none → Loop shown d [⟨shown, d.after hs, key, log⟩]
  | next {shown : Option Viewer} {d d' : Dashboard} {hs : List Happening} {key : Option Key}
      {log : List (Exchange Feed.Link)} {turns : List Turn} (loggedIn : Bool) (timeOffset : Int)
      (height : Nat) :
      ((d.after hs).turn key).Runs log (some d') →
      Loop (some (d'.drawn loggedIn timeOffset height).viewer)
        (d'.drawn loggedIn timeOffset height) turns →
      Loop shown d (⟨shown, d.after hs, key, log⟩ :: turns)

/-- The turns of a whole run; nothing is drawn before the first of them. -/
def Plays (interval : Nat) (turns : List Turn) : Prop :=
  ∃ log d, (Dashboard.start interval).Runs log d ∧ Loop none d turns

/-! ## What a turn deletes -/

theorem never_togglePolling (d : Dashboard) : d.togglePolling.Never Feed.IsDelete := by
  unfold togglePolling
  by_cases hpolling : d.feed.isPolling
  · rw [if_pos hpolling]
    exact (Feed.never_stop d.feed).bind fun _ => trivial
  · rw [if_neg hpolling]
    exact (Feed.never_start d.feed).bind fun _ => trivial

theorem deletions_of_resolveSelected {d r : Dashboard} {log : List (Exchange Feed.Link)}
    (h : d.resolveSelected.Runs log r) :
    Feed.deletions log = d.viewer.selectedKey?.toList := by
  unfold resolveSelected at h
  rcases he : d.viewer.selectedEntry? with _ | e
  · simp only [he] at h
    rw [(Dialogue.runs_done_iff.1 h).1, Viewer.selectedKey?, he]
    rfl
  · simp only [he] at h
    obtain ⟨_, resolved, nothing, rfl, hresolve, hdone⟩ := Dialogue.runs_bind_iff.1 h
    rw [(Dialogue.runs_done_iff.1 hdone).1, List.append_nil, Feed.deletions_of_resolve hresolve,
      Viewer.selectedKey?, he]
    rfl

theorem never_press {d : Dashboard} {key : Key} (h : key ≠ .char 'r') :
    (d.press key).Never Feed.IsDelete := by
  unfold press
  split
  · trivial
  · trivial
  · trivial
  · trivial
  · trivial
  · trivial
  · exact (never_togglePolling d).bind fun _ => trivial
  · exact absurd rfl h
  · trivial

theorem deletions_of_press {d : Dashboard} {key : Key} {log : List (Exchange Feed.Link)}
    {r : Option Dashboard} (h : (d.press key).Runs log r) :
    Feed.deletions log = if key = .char 'r' then d.viewer.selectedKey?.toList else [] := by
  by_cases hkey : key = .char 'r'
  · subst hkey
    obtain ⟨resolved, hresolve, -⟩ := Dialogue.runs_map_iff.1 h
    exact deletions_of_resolveSelected hresolve
  · rw [if_neg hkey]
    exact Feed.deletions_of_never (h.never (never_press hkey))

/-- What a turn deletes is selected after the list that came in is taken over. -/
theorem deletions_of_turn {d : Dashboard} {key : Option Key} {log : List (Exchange Feed.Link)}
    {r : Option Dashboard} (h : (d.turn key).Runs log r) :
    Feed.deletions log =
      if key = some (.char 'r') then d.takeUpdate.viewer.selectedKey?.toList else [] := by
  rcases key with _ | key
  · rw [(Dialogue.runs_done_iff.1 h).1]
    rfl
  · rw [deletions_of_press h]
    simp only [Option.some.injEq]

/-! ## What is shown -/

theorem takeUpdate_of_seen {d : Dashboard} (h : d.feed.publications = d.seen) :
    d.takeUpdate = d :=
  if_pos h

theorem viewer_takeUpdate_of_unseen {d : Dashboard} (h : d.feed.publications ≠ d.seen) :
    d.takeUpdate.viewer = d.viewer.update d.feed.incidents := by
  rw [takeUpdate, if_neg h]

/-- What is selected after the list that came in is taken over is what is shown, or nothing, unless
the list replaces it. -/
theorem shown_of_takeUpdate_iff {t : Turn}
    (hshown : t.shownKey? = t.dashboard.viewer.selectedKey?) :
    (∀ key, t.dashboard.takeUpdate.viewer.selectedKey? = some key → t.shownKey? = some key) ↔
      ¬t.Replacing := by
  unfold Turn.Replacing
  by_cases hseen : t.dashboard.feed.publications = t.dashboard.seen
  · rw [takeUpdate_of_seen hseen, ← hshown]
    simp [hseen]
  rw [viewer_takeUpdate_of_unseen hseen]
  by_cases hkept : ∃ key, t.shownKey? = some key ∧
      key ∈ t.dashboard.feed.incidents.map Entry.key
  · obtain ⟨key, hkey, hmem⟩ := hkept
    rw [Viewer.selectedKey?_update_of_mem (hshown ▸ hkey) hmem, hkey]
    exact ⟨fun _ hreplacing => hreplacing.2.2 key rfl hmem, fun _ _ => id⟩
  · have hgone : ∀ key, t.shownKey? = some key →
        key ∉ t.dashboard.feed.incidents.map Entry.key := fun key hkey hmem =>
      hkept ⟨key, hkey, hmem⟩
    rw [Viewer.selectedKey?_update_of_not_mem (hshown ▸ hgone)]
    rcases hincidents : t.dashboard.feed.incidents with _ | ⟨first, rest⟩
    · simp
    · rw [hincidents] at hgone
      have hfirst : t.shownKey? ≠ some first.key := fun hkey =>
        hgone first.key hkey List.mem_cons_self
      refine ⟨fun h => absurd (h first.key rfl) hfirst, fun h => absurd ⟨hseen, ?_, hgone⟩ h⟩
      exact List.cons_ne_nil first rest

theorem deletes_shown_of_turn_iff {t : Turn} {r : Option Dashboard}
    (hshown : t.shownKey? = t.dashboard.viewer.selectedKey?)
    (hruns : (t.dashboard.turn t.key).Runs t.log r) :
    (∀ key ∈ Feed.deletions t.log, t.shownKey? = some key) ↔
      ¬(t.key = some (.char 'r') ∧ t.Replacing) := by
  rw [deletions_of_turn hruns]
  by_cases hkey : t.key = some (.char 'r')
  · rw [if_pos hkey]
    simp only [Option.mem_toList, hkey, true_and]
    exact shown_of_takeUpdate_iff hshown
  · simp [hkey]

/-! ## Runs of the loop -/

theorem deletes_shown_of_loop_iff {shown : Option Viewer} {d : Dashboard} {turns : List Turn}
    (h : Loop shown d turns) (hshown : shown.bind Viewer.selectedKey? = d.viewer.selectedKey?) :
    ∀ t ∈ turns, (∀ key ∈ Feed.deletions t.log, t.shownKey? = some key) ↔
      ¬(t.key = some (.char 'r') ∧ t.Replacing) := by
  induction h with
  | idle shown d => exact fun t ht => nomatch ht
  | quit hruns =>
    intro t ht
    obtain rfl := List.mem_singleton.1 ht
    exact deletes_shown_of_turn_iff hshown hruns
  | next loggedIn timeOffset height hruns _ ih =>
    intro t ht
    rcases List.mem_cons.1 ht with rfl | ht
    · exact deletes_shown_of_turn_iff hshown hruns
    · exact ih rfl t ht

theorem selectedKey?_start {interval : Nat} {log : List (Exchange Feed.Link)} {d : Dashboard}
    (h : (start interval).Runs log d) : d.viewer.selectedKey? = none := by
  obtain ⟨feed, _, _, -, -, hdone⟩ := Dialogue.runs_bind_iff.1 h
  rw [(Dialogue.runs_done_iff.1 hdone).2]
  rfl

/-! ## Turns that nothing comes between -/

theorem runs_start_of_quiet (interval : Nat) {body : Except ApiError Json} {entries : List Entry}
    (hlisting : listing? body = some entries) :
    (start interval).Runs [⟨.fetch, (body, 0)⟩, ⟨.report (.pollingStarted interval), ()⟩]
      ⟨{ Viewer.empty with polling := true },
        { (Feed.idle interval).fetched 0 entries with schedule := some ⟨0 + interval, interval⟩ },
        0⟩ :=
  Dialogue.runs_bind_iff.2
    ⟨_, [_, _], [], rfl, Feed.runs_start_of_quiet rfl rfl hlisting, .done _⟩

theorem runs_turn_resolved {d : Dashboard} {e : Entry} {body : Except ApiError Json}
    {entries : List Entry} (he : d.takeUpdate.viewer.selectedEntry? = some e)
    (hquiet : d.takeUpdate.feed.moment (d.takeUpdate.feed.now + 0) = .quiet)
    (hlisting : listing? body = some entries) :
    (d.turn (some (.char 'r'))).Runs
      [⟨.delete e.key, .ok ()⟩, ⟨.report (.incidentResolved e.key), ()⟩, ⟨.fetch, (body, 0)⟩]
      (some (({ d.takeUpdate with feed := d.takeUpdate.feed.fetched 0 entries }).say
        (resolveMessage e.key (.ok ())))) := by
  have hresolve := Feed.runs_resolve_of_quiet e.key hquiet hlisting
  refine Dialogue.runs_map_iff.2 ⟨_, ?_, rfl⟩
  rw [resolveSelected, he]
  exact Dialogue.runs_bind_iff.2 ⟨_, [_, _, _], [], rfl, hresolve, .done _⟩

theorem runs_turn_refused {d : Dashboard} {e : Entry}
    (he : d.takeUpdate.viewer.selectedEntry? = some e) (cause : ApiError) :
    (d.turn (some (.char 'r'))).Runs [⟨.delete e.key, .error cause⟩]
      (some (d.takeUpdate.say (resolveMessage e.key (.error cause)))) := by
  have hresolve := Feed.runs_resolve_of_refused d.takeUpdate.feed e.key cause
  refine Dialogue.runs_map_iff.2 ⟨_, ?_, rfl⟩
  rw [resolveSelected, he]
  exact Dialogue.runs_bind_iff.2 ⟨_, [_], [], rfl, hresolve, .done _⟩

theorem Loop.next_at_once {shown : Option Viewer} {d d' : Dashboard} {key : Option Key}
    {log : List (Exchange Feed.Link)} {turns : List Turn}
    (hruns : (d.turn key).Runs log (some d'))
    (hloop : Loop (some (d'.drawn true 0 24).viewer) (d'.drawn true 0 24) turns) :
    Loop shown d (⟨shown, d, key, log⟩ :: turns) :=
  @Loop.next shown d d' [] key log turns true 0 24 hruns hloop

/-- A run that resolves twice: one incident is listed, and another one in its place once it is
resolved. The second key is typed before the other incident is shown. -/
theorem exists_plays_resolving_twice :
    ∃ turns, Plays 1000 turns ∧ turns.length = 3 ∧
      ∃ t ∈ turns, t.shownKey? = some "a" ∧ Feed.deletions t.log = ["b"] := by
  obtain ⟨i, hi⟩ : ∃ i, Incident.ofJson (.object [("status", .int 2), ("time", .int 1)]) = .ok i :=
    ⟨_, rfl⟩
  have hstart := runs_start_of_quiet 1000 (listing?_singleton "a" hi)
  generalize hopened : (⟨_, _, _⟩ : Dashboard) = opened at hstart
  have hlisted : (opened.turn none).Runs [] (some opened.takeUpdate) := .done _
  generalize hd : opened.takeUpdate.drawn true 0 24 = d
  have hselected : d.takeUpdate.viewer.selectedEntry? = some ⟨"a", i.backfill⟩ := by
    rw [← hd, ← hopened]
    rfl
  have hquiet : d.takeUpdate.feed.moment (d.takeUpdate.feed.now + 0) = .quiet := by
    rw [← hd, ← hopened]
    rfl
  have hresolved := runs_turn_resolved hselected hquiet (listing?_singleton "b" hi)
  generalize hsaid : say _ (resolveMessage _ (.ok ())) = said at hresolved
  have hnext : (said.drawn true 0 24).takeUpdate.viewer.selectedEntry? =
      some ⟨"b", i.backfill⟩ := by
    rw [← hsaid, ← hd, ← hopened]
    rfl
  have hshown : (said.drawn true 0 24).viewer.selectedKey? = some "a" := by
    rw [← hsaid, ← hd, ← hopened]
    rfl
  have hrefused := runs_turn_refused hnext (.transport "")
  subst hd
  have hloop : Loop none opened _ :=
    .next_at_once hlisted (.next_at_once hresolved (.next_at_once hrefused (.idle _ _)))
  exact ⟨_, ⟨_, opened, hstart, hloop⟩, rfl, _,
    List.mem_cons_of_mem _ (List.mem_cons_of_mem _ List.mem_cons_self), hshown, rfl⟩

/-- In every turn of every run, each incident whose deletion is asked for is the one that is
highlighted on the screen, exactly if the turn does not resolve while a new list replaces it. -/
theorem deletes_shown_iff {interval : Nat} {turns : List Turn} (h : Plays interval turns) :
    ∀ t ∈ turns, (∀ key ∈ Feed.deletions t.log, t.shownKey? = some key) ↔
      ¬(t.key = some (.char 'r') ∧ t.Replacing) := by
  obtain ⟨log, d, hstart, hloop⟩ := h
  exact deletes_shown_of_loop_iff hloop (selectedKey?_start hstart).symm

theorem deletes_shown_iff_resolving_twice :
    ∃ turns, Plays 1000 turns ∧ turns.length = 3 ∧
      ∀ t ∈ turns, (∀ key ∈ Feed.deletions t.log, t.shownKey? = some key) ↔
        ¬(t.key = some (.char 'r') ∧ t.Replacing) := by
  obtain ⟨turns, hplays, hlength, -⟩ := exists_plays_resolving_twice
  exact ⟨turns, hplays, hlength, deletes_shown_iff hplays⟩

/-- An incident is deleted that was never highlighted. -/
theorem deletes_unshown :
    ∃ turns, Plays 1000 turns ∧
      ∃ t ∈ turns, ∃ key ∈ Feed.deletions t.log, t.shownKey? ≠ some key := by
  obtain ⟨turns, hplays, -, t, ht, hshown, hdeleted⟩ := exists_plays_resolving_twice
  refine ⟨turns, hplays, t, ht, "b", ?_, ?_⟩
  · rw [hdeleted]
    exact List.mem_singleton_self "b"
  · rw [hshown]
    decide

end AlertConsole.Dashboard
