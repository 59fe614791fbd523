import AlertConsole.Proofs.Console.Calls
import AlertConsole.Proofs.Feed.Advance
import AlertConsole.Proofs.Outcome

/-!
# The count after a resolution

`resolve` deletes an incident and then says how many remain. The feed that it asks was never started
and starts with no incidents; when the fetch after the deletion fails, the feed keeps these, and
`resolve` counts them (`remaining_is_real_iff`).
-/

namespace AlertConsole

open Dialogue (Relayed relayed_cons_iff relayed_nil_iff)
open Http (Fault Message)
open Http.Client (Carries arrived arrived_eq_ok_iff document exchanges exchanges_append prepared urlOf)

/-! ## A feed that was not started -/

namespace Feed

variable {interval : Nat} {key : String} {asked : List (Exchange Link)} {f : Feed}

theorem refresh_idle (interval : Nat) :
    (idle interval).refresh = Dialogue.question (I := Link) .fetch >>= fun reply =>
      .done (({ idle interval with now := reply.2 } : Feed).land reply.1) := by
  refine congrArg (Dialogue.question (I := Link) .fetch >>= ·) (funext fun reply => ?_)
  obtain ⟨outcome, latency⟩ := reply
  have hquiet : (idle interval).moment ((idle interval).now + latency) = .quiet := rfl
  have hnow : max (idle interval).now ((idle interval).now + latency) = latency := by
    simp [idle]
  show (advance ((idle interval).now + latency) (idle interval) >>= _) = _
  rw [advance_of_quiet hquiet, hnow]
  rfl

/-- A report that was made. -/
def reported (event : Event) : Exchange Link :=
  ⟨.report event, ()⟩

theorem runs_reportFailure {α : Type} {event : ApiError → Event} {outcome : Except ApiError α}
    (h : (reportFailure event outcome).Runs asked ()) :
    ∃ events : List Event, asked = events.map reported := by
  rcases outcome with cause | a
  · obtain rfl := Dialogue.runs_question_iff.1 h
    exact ⟨[event cause], rfl⟩
  · obtain ⟨rfl, -⟩ := Dialogue.runs_done_iff.1 h
    exact ⟨[], rfl⟩

theorem exists_runs_reportFailure {α : Type} (event : ApiError → Event)
    (outcome : Except ApiError α) :
    ∃ events : List Event, (reportFailure event outcome).Runs (events.map reported) () := by
  rcases outcome with cause | a
  · exact ⟨[event cause], Dialogue.runs_question_iff.2 rfl⟩
  · exact ⟨[], .done ()⟩

/-- An incident is resolved when its deletion succeeds. Then there is one fetch, and its list is that
of the feed if it has one. -/
theorem runs_resolve_idle (h : ((idle interval).resolve key).Runs asked (.ok (), f)) :
    ∃ (reply : Reply) (events : List Event), asked = ⟨.delete key, .ok ()⟩ :: reported (.incidentResolved key) ::
        ⟨.fetch, reply⟩ :: events.map reported ∧
      f.incidents = (listing? reply.1).getD [] := by
  obtain ⟨deletion, first, afterDelete, rfl, hdelete, hresolve⟩ := Dialogue.runs_bind_iff.1 h
  obtain rfl := Dialogue.runs_question_iff.1 hdelete
  rcases deletion with cause | ⟨⟩
  · obtain ⟨-, hresult⟩ := Dialogue.runs_done_iff.1 hresolve
    cases hresult
  obtain ⟨⟨⟩, second, afterReport, rfl, hreport, hfetching⟩ := Dialogue.runs_bind_iff.1 hresolve
  obtain rfl := Dialogue.runs_question_iff.1 hreport
  obtain ⟨landed, third, afterFetch, rfl, hrefresh, hreporting⟩ :=
    Dialogue.runs_bind_iff.1 hfetching
  rw [refresh_idle] at hrefresh
  obtain ⟨reply, fetching, done, rfl, hfetch, hlanded⟩ := Dialogue.runs_bind_iff.1 hrefresh
  obtain rfl := Dialogue.runs_question_iff.1 hfetch
  obtain ⟨rfl, rfl⟩ := Dialogue.runs_done_iff.1 hlanded
  obtain ⟨⟨⟩, reports, last, rfl, hreports, hdone⟩ := Dialogue.runs_bind_iff.1 hreporting
  obtain ⟨events, rfl⟩ := runs_reportFailure hreports
  obtain ⟨rfl, hresult⟩ := Dialogue.runs_done_iff.1 hdone
  obtain ⟨-, rfl⟩ := Prod.mk.inj hresult
  refine ⟨reply, events, ?_, incidents_land _ reply.1⟩
  rw [List.append_nil, List.append_nil]
  rfl

/-- An accepted deletion is enough, whatever the fetch gives. -/
theorem exists_runs_resolve_idle (interval : Nat) (key : String) (reply : Reply) :
    ∃ (events : List Event) (f : Feed), ((idle interval).resolve key).Runs
      (⟨.delete key, .ok ()⟩ :: reported (.incidentResolved key) :: ⟨.fetch, reply⟩ ::
        events.map reported) (.ok (), f) := by
  let landed := ({ idle interval with now := reply.2 } : Feed).land reply.1
  obtain ⟨events, hreports⟩ := exists_runs_reportFailure .refetchFailed landed.1
  have hrefresh : (idle interval).refresh.Runs [⟨.fetch, reply⟩] landed := by
    rw [refresh_idle]
    exact Dialogue.runs_bind_iff.2 ⟨reply, [_], [], rfl, Dialogue.runs_question_iff.2 rfl, .done _⟩
  refine ⟨events, landed.2, Dialogue.runs_bind_iff.2
    ⟨.ok (), [_], _ :: _, rfl, Dialogue.runs_question_iff.2 rfl, ?_⟩⟩
  refine Dialogue.runs_bind_iff.2 ⟨(), [_], _ :: _, rfl, Dialogue.runs_question_iff.2 rfl, ?_⟩
  refine Dialogue.runs_bind_iff.2 ⟨landed, [_], events.map reported, rfl, hrefresh, ?_⟩
  exact Dialogue.runs_bind_iff.2 ⟨(), _, [], (List.append_nil _).symm, hreports, .done _⟩

end Feed

namespace Console

variable {config : Config} {key : String} {s s' : SessionStore} {log : List (Exchange Host)}

/-! ## What the feed asks, over HTTP -/

/-- Answers a feed from the server. -/
def answerFeed (config : Config) (q : Feed.Question) : Console (Feed.Answer q) :=
  (Feed.overApi 0 q).interpret (answerApi config false)

theorem withFeed_eq {α : Type} (config : Config) (d : Dialogue Feed.Link α) :
    withFeed config d = d.interpret (answerFeed config) :=
  Dialogue.interpret_interpret _ _ d

theorem runs_withFeed_iff {α : Type} {d : Dialogue Feed.Link α} {a : α} :
    (withFeed config d s).Runs log (a, s') ↔
      ∃ asked, d.Runs asked a ∧ Relayed (answerFeed config) s asked log s' := by
  rw [withFeed_eq]
  exact Dialogue.runs_interpret_iff

theorem answerFeed_delete (config : Config) (key : String) :
    answerFeed config (.delete key) =
      Http.Client.call config (.delete (Family.incident.path key)) :=
  bind_pure (answerApi config false (.call (.delete (Family.incident.path key))))

theorem answerFeed_report (config : Config) (event : Event) :
    answerFeed config (.report event) = report event :=
  bind_pure _

theorem runs_answerFeed_fetch {reply : Reply}
    (h : (answerFeed config .fetch s).Runs log (reply, s')) :
    (Http.Client.call config (.get Family.incident.listing) s).Runs log (reply.1, s') := by
  obtain ⟨outcome, mid, first, rest, rfl, hcall, hdone⟩ := runs_bind_iff.1 h
  obtain ⟨rfl, hresult⟩ := Dialogue.runs_done_iff.1 hdone
  obtain ⟨rfl, rfl⟩ := Prod.mk.inj hresult
  rw [List.append_nil]
  exact hcall

/-- A report that was made to the host. -/
def noted (event : Event) : Exchange Host :=
  ⟨.report event, ()⟩

theorem runs_report_iff {event : Event} :
    (report event s).Runs log ((), s') ↔ log = [noted event] ∧ s' = s := by
  rw [report, runs_host_iff]
  exact and_congr_left' Dialogue.runs_question_iff

theorem runs_answerFeed_report_iff {event : Event} :
    (answerFeed config (.report event) s).Runs log ((), s') ↔ log = [noted event] ∧ s' = s := by
  rw [answerFeed_report, runs_report_iff]

theorem relayed_reports_iff {events : List Event} :
    Relayed (answerFeed config) s (events.map Feed.reported) log s' ↔
      log = events.map noted ∧ s' = s := by
  induction events generalizing s log with
  | nil => exact relayed_nil_iff
  | cons event rest ih =>
    rw [List.map_cons, relayed_cons_iff]
    constructor
    · rintro ⟨mid, first, later, rfl, hfirst, hrest⟩
      obtain ⟨rfl, rfl⟩ := runs_answerFeed_report_iff.1 hfirst
      obtain ⟨rfl, rfl⟩ := ih.1 hrest
      exact ⟨rfl, rfl⟩
    · rintro ⟨rfl, rfl⟩
      exact ⟨s', [noted event], rest.map noted, rfl, runs_answerFeed_report_iff.2 ⟨rfl, rfl⟩,
        ih.2 ⟨rfl, rfl⟩⟩

theorem exchanges_noted (events : List Event) : exchanges (events.map noted) = [] := by
  rw [exchanges, List.filterMap_map, List.filterMap_eq_nil_iff]
  exact fun _ _ => rfl

theorem printed_noted (events : List Event) : printed (events.map noted) = [] := by
  rw [printed, List.filterMap_map, List.filterMap_eq_nil_iff]
  exact fun _ _ => rfl

/-! ## Deletions and lists on the wire -/

/-- The server accepted the deletion of an incident. -/
structure IsDeletion (config : Config) (key : String) (e : Message × Except Fault Http.Reply) :
    Prop where
  method : e.1.method = .delete
  url : urlOf config.baseUrl (Family.incident.path key) = .ok e.1.url
  accepted : ∃ reply, e.2 = .ok reply ∧ reply.isSuccess = true

/-- The server returned a list of incidents. -/
structure IsListing (config : Config) (entries : List Entry)
    (e : Message × Except Fault Http.Reply) : Prop where
  method : e.1.method = .get
  url : urlOf config.baseUrl Family.incident.listing = .ok e.1.url
  returned : ∃ reply, e.2 = .ok reply ∧ reply.isSuccess = true ∧
    (document reply.body).bind Listing.ofJson = .ok entries

theorem exists_isDeletion
    (h : (Http.Client.call config (.delete (Family.incident.path key)) s).Runs log (.ok (), s')) :
    ∃ e, exchanges log = [e] ∧ IsDeletion config key e := by
  rcases Http.Client.exchanges_of_call rfl h with
    ⟨fault, -, -, houtcome⟩ | ⟨m, reply, hprepared, hexchanges, houtcome⟩
  · cases houtcome
  · have hcarries := Http.Client.carries_of_prepared hprepared
    obtain ⟨body, hbody, -⟩ := map_eq_ok_iff.1 houtcome.symm
    obtain ⟨r, rfl, hsuccess, -⟩ := arrived_eq_ok_iff.1 hbody
    exact ⟨_, hexchanges, hcarries.method, hcarries.url _ rfl, r, rfl, hsuccess⟩

/-- A fetch has a list exactly if the server returned it. -/
theorem isListing_of_call {outcome : Except ApiError Json}
    (h : (Http.Client.call config (.get Family.incident.listing) s).Runs log (outcome, s')) :
    exchanges log = [] ∧ listing? outcome = none ∨
      ∃ e, exchanges log = [e] ∧
        ∀ entries, IsListing config entries e ↔ listing? outcome = some entries := by
  rcases Http.Client.exchanges_of_call rfl h with
    ⟨fault, -, hexchanges, rfl⟩ | ⟨m, reply, hprepared, hexchanges, rfl⟩
  · exact .inl ⟨hexchanges, rfl⟩
  refine .inr ⟨(m, reply), hexchanges, fun entries => ?_⟩
  have hcarries := Http.Client.carries_of_prepared hprepared
  show _ ↔ (((arrived reply).bind document).bind Listing.ofJson).toOption = some entries
  constructor
  · rintro ⟨-, -, r, rfl, hsuccess, hlist⟩
    have hbody : arrived (.ok r) = .ok r.body := arrived_eq_ok_iff.2 ⟨r, rfl, hsuccess, rfl⟩
    rw [hbody]
    exact congrArg Except.toOption hlist
  · intro hlist
    rcases hbody : arrived reply with cause | body
    · rw [hbody] at hlist
      cases hlist
    obtain ⟨r, rfl, hsuccess, rfl⟩ := arrived_eq_ok_iff.1 hbody
    refine ⟨hcarries.method, hcarries.url _ rfl, r, rfl, hsuccess, ?_⟩
    rw [hbody] at hlist
    exact toOption_eq_some_iff.1 hlist

theorem IsListing.unique {entries entries' : List Entry} {e : Message × Except Fault Http.Reply}
    (h : IsListing config entries e) (h' : IsListing config entries' e) : entries = entries' := by
  obtain ⟨reply, hreply, -, hlist⟩ := h.returned
  obtain ⟨reply', hreply', -, hlist'⟩ := h'.returned
  obtain rfl := Except.ok.inj (hreply.symm.trans hreply')
  exact Except.ok.inj (hlist.symm.trans hlist')

theorem not_isListing_of_isDeletion {entries : List Entry} {e : Message × Except Fault Http.Reply}
    (h : IsDeletion config key e) : ¬IsListing config entries e := by
  intro hlisting
  have hmethod : Http.Method.delete = .get := h.method.symm.trans hlisting.method
  cases hmethod

/-- A number of incidents is that of a list which the server returned after it accepted the deletion
of an incident. -/
def IsReal (config : Config) (key : String) (n : Nat)
    (es : List (Message × Except Fault Http.Reply)) : Prop :=
  ∃ deletion listing entries, [deletion, listing].Sublist es ∧ IsDeletion config key deletion ∧
    IsListing config entries listing ∧ n = entries.length

/-- The exchanges brought one list of this length, or they brought none and the number is 0. -/
inductive Counts (config : Config) : List (Message × Except Fault Http.Reply) → Nat → Prop where
  | listed {e : Message × Except Fault Http.Reply} {entries : List Entry} :
      IsListing config entries e → Counts config [e] entries.length
  | unlisted {es : List (Message × Except Fault Http.Reply)} :
      (∀ e ∈ es, ∀ entries, ¬IsListing config entries e) → Counts config es 0

theorem counts_of_call {outcome : Except ApiError Json}
    (h : (Http.Client.call config (.get Family.incident.listing) s).Runs log (outcome, s')) :
    Counts config (exchanges log) ((listing? outcome).getD []).length := by
  rcases isListing_of_call h with ⟨hexchanges, houtcome⟩ | ⟨e, hexchanges, hiff⟩
  · rw [hexchanges, houtcome]
    exact .unlisted fun e he => nomatch he
  rw [hexchanges]
  rcases houtcome : listing? outcome with _ | entries
  · refine .unlisted fun e' he' entries hlisting => ?_
    obtain rfl := List.mem_singleton.1 he'
    rw [hiff, houtcome] at hlisting
    cases hlisting
  · exact .listed ((hiff entries).2 houtcome)

/-! ## The command -/

/-- What a successful resolution exchanges and prints. -/
theorem exchanges_of_resolve (h : (resolve config key s).Runs log (.ok (), s')) :
    ∃ deletion rest n, exchanges log = deletion :: rest ∧ IsDeletion config key deletion ∧
      Counts config rest n ∧
      printed log = [s!"resolved {key}; {n} incident(s) remain" ++ "\n"] := by
  obtain ⟨⟨answer, feed⟩, mid, feeding, printing, rfl, hfeed, hthen⟩ := runs_bind_iff.1 h
  obtain ⟨asked, hasked, hrelayed⟩ := runs_withFeed_iff.1 hfeed
  rcases runs_andThen hthen with ⟨cause, -, hfailed, -⟩ | ⟨⟨⟩, rfl, -, hprint⟩
  · cases hfailed
  obtain ⟨rfl, rfl⟩ := runs_printLine_iff.1 hprint
  obtain ⟨reply, events, rfl, hincidents⟩ := Feed.runs_resolve_idle hasked
  obtain ⟨_, deleting, _, rfl, hdelete, hafterDelete⟩ := relayed_cons_iff.1 hrelayed
  obtain ⟨_, reporting, _, rfl, hreport, hafterReport⟩ := relayed_cons_iff.1 hafterDelete
  obtain ⟨_, fetching, _, rfl, hfetch, hreports⟩ := relayed_cons_iff.1 hafterReport
  rw [answerFeed_delete] at hdelete
  have hlisting := runs_answerFeed_fetch hfetch
  obtain ⟨rfl, rfl⟩ := runs_answerFeed_report_iff.1 hreport
  obtain ⟨rfl, rfl⟩ := relayed_reports_iff.1 hreports
  obtain ⟨e, he, hdeleted⟩ := exists_isDeletion hdelete
  refine ⟨e, exchanges fetching, _, ?_, hdeleted, counts_of_call hlisting, ?_⟩
  · simp only [exchanges_append, he, exchanges_noted, List.append_nil]
    exact List.append_nil (e :: exchanges fetching)
  · simp only [printed_append, printed_of_call hdelete, printed_of_call hlisting, printed_noted]
    rw [hincidents]
    rfl

/-- A resolution ends successfully when its deletion is accepted, whatever comes of the fetch. -/
theorem exists_runs_resolve (hfile : s.file = none) {m m' : Message}
    (hdelete : prepared config s.held.token (.delete (Family.incident.path key)) = .ok m)
    (hfetch : prepared config s.held.token (.get Family.incident.listing) = .ok m')
    {deleted : Http.Reply} (hsuccess : deleted.isSuccess = true)
    (fetched : Except Fault Http.Reply) :
    ∃ log, (resolve config key s).Runs log (.ok (), s) ∧
      exchanges log = [(m, .ok deleted), (m', fetched)] := by
  have hcall := Http.Client.runs_call_of_memory hfile rfl hdelete (.ok deleted)
  have hcall' := Http.Client.runs_call_of_memory hfile rfl hfetch fetched
  have haccepted : arrived (.ok deleted) = .ok deleted.body :=
    arrived_eq_ok_iff.2 ⟨deleted, rfl, hsuccess, rfl⟩
  rw [haccepted, ← answerFeed_delete] at hcall
  have hanswer : (answerFeed config .fetch s).Runs [⟨.exchange m', fetched⟩]
      (((arrived fetched).bind document, 0), s) :=
    runs_bind_iff.2 ⟨_, s, _, [], rfl, hcall', .done _⟩
  obtain ⟨events, f, hfeed⟩ :=
    Feed.exists_runs_resolve_idle config.pollInterval key ((arrived fetched).bind document, 0)
  have hreport : (answerFeed config (.report (.incidentResolved key)) s).Runs
      [noted (.incidentResolved key)] ((), s) := runs_answerFeed_report_iff.2 ⟨rfl, rfl⟩
  have hreports : Relayed (answerFeed config) s (events.map Feed.reported) (events.map noted) s :=
    relayed_reports_iff.2 ⟨rfl, rfl⟩
  have hrelayed := Relayed.cons hcall (.cons hreport (.cons hanswer hreports))
  have hwork := Dialogue.runs_interpret_iff.2 ⟨_, hfeed, hrelayed⟩
  rw [← withFeed_eq] at hwork
  refine ⟨_, runs_bind_iff.2 ⟨(.ok (), f), s, _, [_], rfl, hwork, runs_bind_iff.2
    ⟨(), s, [_], [], rfl, runs_printLine_iff.2 ⟨rfl, rfl⟩, .done _⟩⟩, ?_⟩
  simp only [exchanges_append, exchanges_noted, List.append_nil]
  rfl

/-- A successful resolution says one number of incidents. If the server returned a list, it is the
length of that list, which came after the deletion was accepted; if not, nobody has said how many
incidents there are, and the number is 0. -/
theorem remaining_is_real_iff (h : (resolve config key s).Runs log (.ok (), s')) :
    ∃ n : Nat, printed log = [s!"resolved {key}; {n} incident(s) remain" ++ "\n"] ∧
      (IsReal config key n (exchanges log) ↔
        ∃ e ∈ exchanges log, ∃ entries, IsListing config entries e) ∧
      (¬(∃ e ∈ exchanges log, ∃ entries, IsListing config entries e) → n = 0) := by
  obtain ⟨deletion, rest, n, hexchanges, hdeletion, hcounts, hprinted⟩ := exchanges_of_resolve h
  rw [hexchanges]
  refine ⟨n, hprinted, ⟨?_, ?_⟩, ?_⟩
  · rintro ⟨_, listing, entries, hsublist, -, hlisting, -⟩
    have hmem : listing ∈ deletion :: rest := hsublist.subset (by simp)
    exact ⟨listing, hmem, entries, hlisting⟩
  · rintro ⟨e, he, entries, hlisting⟩
    have hrest : e ∈ rest := by
      rcases List.mem_cons.1 he with rfl | hrest
      · exact absurd hlisting (not_isListing_of_isDeletion hdeletion)
      · exact hrest
    cases hcounts with
    | listed hlisted => exact ⟨deletion, _, _, .refl _, hdeletion, hlisted, rfl⟩
    | unlisted hnone => exact absurd hlisting (hnone e hrest entries)
  · intro hnone
    cases hcounts with
    | @listed e entries hlisted =>
      have hmem : e ∈ [deletion, e] := by simp
      exact absurd ⟨e, hmem, entries, hlisted⟩ hnone
    | unlisted => rfl

/-- With the standard settings the incident `a` is resolved, whatever comes of the fetch. -/
theorem exists_runs_resolve_standard (fetched : Except Fault Http.Reply) :
    ∃ log deletion m, (resolve .standard "a" .inMemory).Runs log (.ok (), .inMemory) ∧
      exchanges log = [deletion, (m, fetched)] ∧
      Carries .standard (.get Family.incident.listing) m := by
  have haddressed : Addressed .standard
      [.delete (Family.incident.path "a"), .get Family.incident.listing] := by
    decide +kernel
  obtain ⟨m, hdelete⟩ := isOk_iff.1 (haddressed _ List.mem_cons_self)
  obtain ⟨m', hfetch⟩ := isOk_iff.1 (haddressed _ (List.mem_cons_of_mem _ List.mem_cons_self))
  have hfile : SessionStore.inMemory.file = none := rfl
  have hsuccess : (⟨200, ""⟩ : Http.Reply).isSuccess = true := rfl
  obtain ⟨log, hruns, hexchanges⟩ := exists_runs_resolve hfile hdelete hfetch hsuccess fetched
  exact ⟨log, _, m', hruns, hexchanges, Http.Client.carries_of_prepared hfetch⟩

/-- One incident remains. -/
theorem remaining_is_real_after_list :
    ∃ log, (resolve .standard "a" .inMemory).Runs log (.ok (), .inMemory) ∧
      printed log = ["resolved a; 1 incident(s) remain\n"] ∧
      IsReal .standard "a" 1 (exchanges log) := by
  let reply : Http.Reply := ⟨200, "\x7b\"b\":\x7b\"time\":2,\"status\":2\x7d\x7d"⟩
  obtain ⟨log, deletion, m, hruns, hexchanges, hcarries⟩ :=
    exists_runs_resolve_standard (.ok reply)
  have hlength : ((document reply.body).bind Listing.ofJson).toOption.map List.length = some 1 := by
    decide +kernel
  obtain ⟨entries, hentries, hone⟩ := Option.map_eq_some_iff.1 hlength
  have hlisting : IsListing .standard entries (m, .ok reply) :=
    ⟨hcarries.method, hcarries.url _ rfl, reply, rfl, rfl, toOption_eq_some_iff.1 hentries⟩
  obtain ⟨n, hprinted, hreal, -⟩ := remaining_is_real_iff hruns
  have hmem : (m, .ok reply) ∈ exchanges log := by simp [hexchanges]
  obtain ⟨d, l, entries', hsublist, hdeletion, hlisting', hn⟩ :=
    hreal.2 ⟨_, hmem, entries, hlisting⟩
  have hpair : [d, l] = [deletion, (m, .ok reply)] := (hexchanges ▸ hsublist).eq_of_length rfl
  obtain ⟨rfl, hlast⟩ := List.cons.inj hpair
  obtain rfl := List.singleton_inj.1 hlast
  obtain rfl := hlisting'.unique hlisting
  obtain rfl := hn.trans hone
  exact ⟨log, hruns, hprinted, hreal.2 ⟨_, hmem, entries', hlisting⟩⟩

/-- No incident remains, it says, but the server did not say how many there are. -/
theorem remaining_is_not_real_after_failure :
    ∃ log, (resolve .standard "a" .inMemory).Runs log (.ok (), .inMemory) ∧
      printed log = ["resolved a; 0 incident(s) remain\n"] ∧
      ¬IsReal .standard "a" 0 (exchanges log) := by
  obtain ⟨log, deletion, m, hruns, hexchanges, -⟩ :=
    exists_runs_resolve_standard (.ok ⟨500, "boom"⟩)
  obtain ⟨d, rest, n, hrest, hdeletion, hcounts, hprinted⟩ := exchanges_of_resolve hruns
  obtain ⟨rfl, rfl⟩ := List.cons.inj (hrest.symm.trans hexchanges)
  have hnone : ∀ entries, ¬IsListing .standard entries (m, .ok ⟨500, "boom"⟩) := by
    rintro entries ⟨-, -, reply, hreply, hsuccess, -⟩
    cases hreply
    cases hsuccess
  have hzero : n = 0 := by
    cases hcounts with
    | listed hlisting => exact absurd hlisting (hnone _)
    | unlisted => rfl
  subst hzero
  refine ⟨log, hruns, hprinted, ?_⟩
  rintro ⟨_, listing, entries, hsublist, -, hlisting, -⟩
  rw [hexchanges] at hsublist
  rcases List.mem_pair.1 (hsublist.subset (by simp : listing ∈ [_, listing])) with rfl | rfl
  · exact not_isListing_of_isDeletion hdeletion hlisting
  · exact hnone entries hlisting

end Console

end AlertConsole
