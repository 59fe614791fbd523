import AlertConsole.Proofs.Console.Resolve
import AlertConsole.Proofs.Feed.Deletions
import AlertConsole.Proofs.Watch.Invariant

/-!
# What a watch does to its surroundings

A watch reads the session file, sends requests and prints lists. The occurrences of a vigil have the
same effects, and they `Play` a log that has these effects in their order. What a feed asks for goes
out with a look at the session file for each fetch (`exists_fetching`), which is what the ticks of the
background come to as well (`exists_background`).
-/

namespace AlertConsole

open Console (Format incidentsText answerFeed runs_answerFeed_fetch
  runs_answerFeed_report_iff)
open Dialogue (Relayed)
open Http (Message)
open Http.Client (prepared)

/-! ## Effects -/

inductive Effect where
  | read (content : FileContent)
  | sent (m : Message)
  | printed (text : String)

namespace Effect

variable {log log' : List (Exchange Host)}

/-- The effects that a log tells of, in this order. -/
def ofLog (log : List (Exchange Host)) : List Effect :=
  log.filterMap fun
    | ⟨.read _, content⟩ => some (.read content)
    | ⟨.exchange m, _⟩ => some (.sent m)
    | ⟨.print text, _⟩ => some (.printed text)
    | _ => none

theorem ofLog_append (log log' : List (Exchange Host)) : ofLog (log ++ log') = ofLog log ++ ofLog log' :=
  List.filterMap_append

def sent? : Effect → Option Message
  | .sent m => some m
  | _ => none

def printed? : Effect → Option String
  | .printed text => some text
  | _ => none

theorem filterMap_sent?_ofLog (log : List (Exchange Host)) :
    (ofLog log).filterMap sent? = Http.Client.sent log := by
  rw [ofLog, List.filterMap_filterMap, Http.Client.sent]
  congr 1
  funext e
  obtain ⟨q, r⟩ := e
  cases q <;> rfl

theorem filterMap_printed?_ofLog (log : List (Exchange Host)) :
    (ofLog log).filterMap printed? = AlertConsole.printed log := by
  rw [ofLog, List.filterMap_filterMap, AlertConsole.printed]
  congr 1
  funext e
  obtain ⟨q, r⟩ := e
  cases q <;> rfl

/-! ### Calls -/

/-- A look reads the session file, if there is one. -/
def ofLook (s : SessionStore) (content : FileContent) : List Effect :=
  if s.file.isSome then [.read content] else []

/-- A request is sent if it can be. -/
def ofRequest (config : Config) (s : SessionStore) (request : Request) : List Effect :=
  (prepared config s.held.token request).toOption.toList.map .sent

variable {config : Config} {s s' : SessionStore}

@[simp] theorem filterMap_sent?_ofRequest (request : Request) :
    (ofRequest config s request).filterMap sent? =
      (prepared config s.held.token request).toOption.toList := by
  rw [ofRequest]
  cases (prepared config s.held.token request).toOption <;> rfl

@[simp] theorem filterMap_printed?_ofRequest (request : Request) :
    (ofRequest config s request).filterMap printed? = [] := by
  rw [ofRequest]
  cases (prepared config s.held.token request).toOption <;> rfl

/-- Looks come to what syncs come to. -/
theorem exists_runs_sync_iff {effects : List Effect} :
    (∃ log, s.sync.Runs log s' ∧ ofLog log = effects) ↔
      ∃ content, s' = s.looked content ∧ effects = ofLook s content := by
  cases hfile : s.file with
  | none =>
    simp only [SessionStore.looked_of_memory hfile, SessionStore.sync, hfile, ofLook]
    constructor
    · rintro ⟨log, hruns, rfl⟩
      obtain ⟨rfl, rfl⟩ := Dialogue.runs_done_iff.1 hruns
      exact ⟨.missing, rfl, rfl⟩
    · rintro ⟨-, rfl, rfl⟩
      exact ⟨[], .done s', rfl⟩
  | some path =>
    have hlooking : ∀ content published,
        ofLog (SessionStore.looking path content published) = ofLook s content := by
      intro content published
      rw [ofLook, hfile]
      cases published <;> rfl
    simp only [SessionStore.looked_of_file hfile, SessionStore.runs_sync_iff hfile]
    constructor
    · rintro ⟨_, ⟨content, hlearned, rfl⟩, rfl⟩
      exact ⟨content, hlearned, hlooking content _⟩
    · rintro ⟨content, hlearned, rfl⟩
      exact ⟨_, ⟨content, hlearned, rfl⟩, hlooking content _⟩

theorem ofLog_send {request : Except Http.Fault Message} {answer : Except ApiError String}
    (h : (Http.Client.send request).Runs log answer) :
    ofLog log = request.toOption.toList.map .sent := by
  cases request with
  | error fault =>
    obtain ⟨rfl, -⟩ := Http.Client.runs_send_error_iff.1 h
    rfl
  | ok m =>
    obtain ⟨reply, rfl, -⟩ := Http.Client.runs_send_ok_iff.1 h
    rfl

/-- A call looks at the session file, and then sends its request. -/
theorem exists_looked_of_call {request : Request} {path : String} {outcome : request.Outcome}
    (hpath : request.path? = some path)
    (h : (Http.Client.call config request s).Runs log (outcome, s')) :
    ∃ content, s' = s.looked content ∧
      ofLog log = ofLook s content ++ ofRequest config s' request := by
  obtain ⟨reading, sending, answer, rfl, hsync, hsend, -⟩ :=
    (Http.Client.runs_call_iff hpath).1 h
  obtain ⟨content, hlooked, hread⟩ := exists_runs_sync_iff.1 ⟨reading, hsync, rfl⟩
  refine ⟨content, hlooked, ?_⟩
  rw [ofLog_append, hread, ofLog_send hsend, ofRequest]

/-- The effects of fetches, one after each of these looks. -/
def ofFetches (config : Config) (s : SessionStore) : List FileContent → List Effect
  | [] => []
  | content :: rest =>
    ofLook s content ++ (ofRequest config (s.looked content) (.get Family.incident.listing) ++
      ofFetches config (s.looked content) rest)

/-- What a feed asks goes out with a look at the session file for each fetch. -/
theorem exists_fetching {asked : List (Exchange Feed.Link)}
    (h : Relayed (answerFeed config) s asked log s') (hasked : ∀ e ∈ asked, ¬Feed.IsDelete e.1) :
    ∃ contents, contents.length = (fetches asked).length ∧
      ofLog log = ofFetches config s contents ∧ s' = contents.foldl SessionStore.looked s := by
  induction h with
  | nil s => exact ⟨[], rfl, rfl, rfl⟩
  | @cons q r s mid last asked first rest hfirst _ ih =>
    obtain ⟨hq, hrest⟩ := List.forall_mem_cons.1 hasked
    obtain ⟨contents, hlength, heffects, hlast⟩ := ih hrest
    cases q with
    | delete key => exact absurd trivial hq
    | report event =>
      obtain ⟨rfl, rfl⟩ := runs_answerFeed_report_iff.1 hfirst
      exact ⟨contents, hlength, heffects, hlast⟩
    | fetch =>
      obtain ⟨content, rfl, hcall⟩ := exists_looked_of_call rfl (runs_answerFeed_fetch hfirst)
      refine ⟨content :: contents, congrArg (· + 1) hlength, ?_, hlast⟩
      rw [ofLog_append, hcall, heffects, ofFetches, List.append_assoc]

end Effect

/-! ## Plays -/

namespace Vigil

variable {config : Config} {format : Format} {v : Vigil} {o : Occurrence}
  {os os' : List Occurrence} {log log' : List (Exchange Host)}

/-- What the session file is found to have in it, if there is one. -/
def looks (v : Vigil) : Occurrence → List Effect
  | .looked content => Effect.ofLook v.store content
  | .synced content => Effect.ofLook v.store content
  | _ => []

/-- The effects of an occurrence, which is a look, a request or a list that is shown. -/
def effects (config : Config) (format : Format) (v : Vigil) (o : Occurrence) : List Effect :=
  v.looks o ++ ((v.requests config o).map .sent ++
    (v.showings o).map fun shown => .printed (incidentsText config.timeOffset format shown.2))

section Single

variable (config : Config) (format : Format) (v : Vigil)

@[simp] theorem effects_background (h : Happening) :
    v.effects config format (.background h) = [] := rfl

@[simp] theorem effects_answered : v.effects config format .answered = [] := rfl

@[simp] theorem effects_handled : v.effects config format .handled = [] := rfl

@[simp] theorem effects_looked (content : FileContent) :
    v.effects config format (.looked content) = Effect.ofLook v.store content :=
  List.append_nil _

@[simp] theorem effects_synced (content : FileContent) :
    v.effects config format (.synced content) = Effect.ofLook v.store content :=
  List.append_nil _

@[simp] theorem effects_requested :
    v.effects config format .requested =
      Effect.ofRequest config v.store (.get Family.incident.listing) := by
  simp [effects, looks, requests, showings, Effect.ofRequest]

@[simp] theorem effects_asked (reply : Reply) :
    v.effects config format (.asked reply) =
      Effect.ofRequest config v.store (.get Family.incident.listing) := by
  simp [effects, looks, requests, showings, Effect.ofRequest]

@[simp] theorem effects_shown :
    v.effects config format .shown =
      [.printed (incidentsText config.timeOffset format v.traffic.feed.incidents)] := rfl

end Single

/-- The occurrences come when they may, and have the effects that the log tells of, in this order. -/
structure Plays (config : Config) (format : Format) (v : Vigil) (os : List Occurrence)
    (log : List (Exchange Host)) : Prop where
  valid : v.Valid os
  effects : Effect.ofLog log = v.collect (effects config format) os

theorem Plays.nil (heffects : Effect.ofLog log = []) : Plays config format v [] log :=
  ⟨trivial, heffects⟩

theorem Plays.append (h : Plays config format v os log)
    (h' : Plays config format (v.run os) os' log') :
    Plays config format v (os ++ os') (log ++ log') where
  valid := valid_append_iff.2 ⟨h.valid, h'.valid⟩
  effects := by rw [Effect.ofLog_append, h.effects, h'.effects, collect_append]

theorem filterMap_collect {α β : Type} {f : Effect → Option α} {g : Vigil → Occurrence → List β}
    {encode : β → α} (hstep : ∀ v o, (effects config format v o).filterMap f = (g v o).map encode)
    (v : Vigil) (os : List Occurrence) :
    (v.collect (effects config format) os).filterMap f = (v.collect g os).map encode := by
  induction os generalizing v with
  | nil => rfl
  | cons o os ih => rw [collect, List.filterMap_append, hstep, ih, collect, List.map_append]

theorem Plays.sent (h : Plays config format v os log) :
    Http.Client.sent log = v.collect (requests config) os := by
  rw [← Effect.filterMap_sent?_ofLog, h.effects]
  refine (filterMap_collect (fun v o => ?_) v os).trans (List.map_id _)
  cases o <;> simp [requests, Effect.ofLook, Effect.sent?]

theorem Plays.printed (h : Plays config format v os log) :
    AlertConsole.printed log = (v.collect showings os).map fun shown =>
      incidentsText config.timeOffset format shown.2 := by
  rw [← Effect.filterMap_printed?_ofLog, h.effects]
  refine filterMap_collect (fun v o => ?_) v os
  cases o <;> simp [showings, Effect.ofLook, Effect.printed?]

/-! ### What goes on while the loop awaits something -/

/-- What is on time may come now, if no request of the schedule is to come. -/
theorem admits_background {h : Happening} {hs : List Happening} (hh : h.IsBackground)
    (honTime : v.traffic.OnTime (h :: hs)) (hphase : v.phase.Awaits)
    (hahead : ∀ fl ∈ v.traffic.awaited, (v.traffic.run (h :: hs)).feed.now ≤ fl.due)
    (hsent : v.outstanding = 0) : v.Admits (.background h) := by
  obtain ⟨htimely, hprompt, hrest⟩ := honTime
  refine ⟨hh, htimely, hprompt, ?_⟩
  cases h with
  | passed time =>
    exact ⟨hphase, fun fl hfl => Nat.le_trans (Traffic.now_le_run hrest) (hahead fl hfl)⟩
  | landed index =>
    show v.outstanding < v.traffic.feed.inFlight.length
    obtain ⟨fl, hfl, -⟩ := Option.map_eq_some_iff.1 htimely
    rw [hsent]
    exact Nat.zero_lt_of_lt (List.getElem?_eq_some_iff.1 hfl).1
  | _ => trivial

/-- What is no tick issues nothing. -/
theorem step_background_of_quiet {h : Happening} (hh : h.IsBackground)
    (htick : ¬∃ reply, h = .ticked reply) :
    v.traffic.issue? h = none ∧
      v.step (.background h) = { v with traffic := v.traffic.step h } := by
  cases h with
  | ticked reply => exact absurd ⟨reply, rfl⟩ htick
  | asked reply => exact hh.elim
  | _ => exact ⟨rfl, rfl⟩

/-- What goes on in the background, with a look and a request for each tick. -/
theorem exists_background {hs : List Happening} {contents : List FileContent} (config : Config)
    (format : Format) (hback : ∀ h ∈ hs, h.IsBackground) (honTime : v.traffic.OnTime hs)
    (hphase : v.phase.Awaits)
    (hahead : ∀ fl ∈ v.traffic.awaited, (v.traffic.run hs).feed.now ≤ fl.due)
    (hsent : v.outstanding = 0) (hlength : contents.length = (v.traffic.issued hs).length) :
    ∃ os, v.Valid os ∧
      v.run os = { v with
        traffic := v.traffic.run hs, store := contents.foldl SessionStore.looked v.store } ∧
      v.collect (effects config format) os = Effect.ofFetches config v.store contents := by
  induction hs generalizing v contents with
  | nil =>
    obtain rfl := List.length_eq_zero_iff.1 hlength
    exact ⟨[], trivial, rfl, rfl⟩
  | cons h hs ih =>
    obtain ⟨hh, hhs⟩ := List.forall_mem_cons.1 hback
    have hadmits := admits_background hh honTime hphase hahead hsent
    obtain ⟨htimely, -, hrest⟩ := honTime
    have hlater : ∀ fl ∈ (v.traffic.step h).awaited,
        ((v.traffic.step h).run hs).feed.now ≤ fl.due := by
      rw [Traffic.awaited_step_of_background hh]
      exact hahead
    by_cases htick : ∃ reply, h = .ticked reply
    · -- The fetch looks and asks at once, before anything else goes on.
      obtain ⟨reply, rfl⟩ := htick
      obtain ⟨time, hnext, -⟩ := htimely
      have hissue : v.traffic.issue? (.ticked reply) = some reply :=
        if_pos (Traffic.isPolling_of_nextTick? hnext)
      rw [Traffic.issued, hissue, Option.toList_some, List.singleton_append,
        List.length_cons] at hlength
      obtain ⟨content, contents, rfl⟩ := List.exists_cons_of_length_eq_add_one hlength
      obtain ⟨os, hvalid, hrun, heffects⟩ :=
        ih (v := ((v.step (.background (.ticked reply))).step (.looked content)).step .requested)
          hhs hrest hphase hlater hsent (Nat.succ.inj hlength)
      refine ⟨.background (.ticked reply) :: .looked content :: .requested :: os, ?_, hrun, ?_⟩
      · exact ⟨hadmits, Nat.succ_pos _, Nat.succ_pos _, hvalid⟩
      · simp only [collect, effects_background, effects_looked, effects_requested, heffects,
          Effect.ofFetches, List.nil_append]
        rfl
    · obtain ⟨hissue, hquiet⟩ := step_background_of_quiet (v := v) hh htick
      rw [Traffic.issued, hissue] at hlength
      obtain ⟨os, hvalid, hrun, heffects⟩ :=
        ih (v := { v with traffic := v.traffic.step h }) hhs hrest hphase hlater hsent hlength
      rw [← hquiet] at hvalid hrun heffects
      refine ⟨.background h :: os, ⟨hadmits, hvalid⟩, ?_, ?_⟩
      · rw [run_cons, hrun, hquiet]
        rfl
      · exact heffects

end Vigil

end AlertConsole
