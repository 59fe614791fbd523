import AlertConsole.Host.Memory
import AlertConsole.Proofs.Console.Calls
import AlertConsole.Proofs.History

/-!
# Going back to a version from the command line

`revert` loads the versions, asks for consent unless it was given in advance, makes the version the
current one and loads the versions once more. It stops at the first failure and at a refusal, except
that the last loading may fail. So a run takes one of four courses (`Reversion`), which are told
apart by what the server answers and by what the operator says (`revert_is_gated`).
-/

namespace AlertConsole

open Dialogue (Relayed)
open Http (Fault Message)
open Http.Client (Carries arrived exchanges exchanges_append prepared received sent)

/-! ## Calls with their answers -/

/-- A call and the answer it was given. -/
abbrev AnsweredCall : Type :=
  (request : Request) × request.Outcome

/-- The calls among exchanges with their answers, in this order. -/
def answeredCalls (asked : List (Exchange Api)) : List AnsweredCall :=
  asked.filterMap fun
    | ⟨.call request, outcome⟩ => some ⟨request, outcome⟩
    | _ => none

/-- What the operator said when asked for consent. -/
def consents (asked : List (Exchange Api)) : List Bool :=
  asked.filterMap fun
    | ⟨.confirm _ _, consent⟩ => some consent
    | _ => none

/-- The lines that were read from the input, where they were text. -/
def linesRead (log : List (Exchange Host)) : List (Option String) :=
  log.filterMap fun
    | ⟨.readLine, line⟩ => some line
    | _ => none

theorem answeredCalls_append (asked asked' : List (Exchange Api)) :
    answeredCalls (asked ++ asked') = answeredCalls asked ++ answeredCalls asked' :=
  List.filterMap_append

theorem consents_append (asked asked' : List (Exchange Api)) :
    consents (asked ++ asked') = consents asked ++ consents asked' :=
  List.filterMap_append

theorem linesRead_append (log log' : List (Exchange Host)) :
    linesRead (log ++ log') = linesRead log ++ linesRead log' :=
  List.filterMap_append

theorem callsOf_eq_map (asked : List (Exchange Api)) :
    callsOf asked = (answeredCalls asked).map Sigma.fst := by
  rw [callsOf, answeredCalls, List.map_filterMap]
  congr 1
  funext e
  obtain ⟨request | event | ⟨title, message⟩, r⟩ := e <;> rfl

/-- An exchange over HTTP served a call: it carries the call, and its reply gave the answer. -/
structure Served (config : Config) (call : AnsweredCall) (e : Message × Except Fault Http.Reply) :
    Prop where
  carries : Carries config call.1 e.1
  answered : call.2 = received call.1 (arrived e.2)

namespace Console

variable {config : Config} {hash : String} {assumeYes : Bool} {s last : SessionStore}
  {request : Request} {asked : List (Exchange Api)} {calls : List AnsweredCall}
  {log : List (Exchange Host)} {answer : Except CommandError Unit}

theorem linesRead_of_call {outcome : request.Outcome}
    (h : (Http.Client.call config request s).Runs log (outcome, last)) : linesRead log = [] := by
  let IsReadLine : Host.Question → Prop := fun q => q = .readLine
  have hnever : ∀ e ∈ log, ¬IsReadLine e.1 :=
    h.never (Http.Client.never_call (by nofun) (by nofun) (by nofun) config request s)
  rw [linesRead, List.filterMap_eq_nil_iff]
  intro e he
  have hquestion := hnever e he
  obtain ⟨m | path | ⟨path, text⟩ | path | event | text | _, r⟩ := e
  case readLine => exact absurd rfl hquestion
  all_goals rfl

/-! ## Consent -/

/-- Consent was given in advance, or by a line of the input that says `y` or `yes`. -/
def Consented (assumeYes : Bool) (log : List (Exchange Host)) : Prop :=
  assumeYes = true ∨ ∃ line, some line ∈ linesRead log ∧ (Text.trim line).toLower ∈ ["y", "yes"]

theorem runs_askConsent {title message : String} {consent : Bool}
    (h : (askConsent title message).Runs log consent) :
    ∃ line, linesRead log = [line] ∧ consent = line.elim false isConsent := by
  obtain ⟨⟨⟩, printing, rest, rfl, hprint, hrest⟩ := Dialogue.runs_bind_iff.1 h
  obtain ⟨line, reading, done, rfl, hline, hdone⟩ := Dialogue.runs_bind_iff.1 hrest
  obtain rfl := Dialogue.runs_question_iff.1 hprint
  obtain rfl := Dialogue.runs_question_iff.1 hline
  obtain ⟨rfl, rfl⟩ := Dialogue.runs_done_iff.1 hdone
  exact ⟨line, rfl, rfl⟩

/-- Nobody is asked for the consent that was given in advance. -/
theorem consents_of_relayed_yes (h : Relayed (answerApi config true) s asked log last) :
    linesRead log = [] ∧ ∀ consent ∈ consents asked, consent = true := by
  induction h with
  | nil s => simp [linesRead, consents]
  | @cons q r s mid last asked first rest hfirst _ ih =>
    rw [linesRead_append, ih.1, List.append_nil]
    cases q with
    | call request => exact ⟨linesRead_of_call hfirst, ih.2⟩
    | report event =>
      obtain ⟨hreport, -⟩ := runs_host_iff.1 hfirst
      obtain rfl := Dialogue.runs_question_iff.1 hreport
      exact ⟨rfl, ih.2⟩
    | confirm title message =>
      obtain ⟨rfl, hresult⟩ := Dialogue.runs_done_iff.1 hfirst
      obtain ⟨rfl, -⟩ := Prod.mk.inj hresult
      exact ⟨rfl, List.forall_mem_cons.2 ⟨rfl, ih.2⟩⟩

/-- Otherwise every consent is a line of the input. -/
theorem consents_of_relayed_no (h : Relayed (answerApi config false) s asked log last) :
    consents asked = (linesRead log).map fun line => line.elim false isConsent := by
  induction h with
  | nil s => rfl
  | @cons q r s mid last asked first rest hfirst _ ih =>
    rw [linesRead_append, List.map_append]
    cases q with
    | call request =>
      rw [linesRead_of_call hfirst]
      exact ih
    | report event =>
      obtain ⟨hreport, -⟩ := runs_host_iff.1 hfirst
      obtain rfl := Dialogue.runs_question_iff.1 hreport
      exact ih
    | confirm title message =>
      obtain ⟨hask, -⟩ := runs_host_iff.1 hfirst
      obtain ⟨line, hline, rfl⟩ := runs_askConsent hask
      rw [hline, ← ih]
      rfl

theorem length_linesRead_le (h : Relayed (answerApi config assumeYes) s asked log last) :
    (linesRead log).length ≤ (consents asked).length := by
  cases assumeYes with
  | true => simp [(consents_of_relayed_yes h).1]
  | false => simp [consents_of_relayed_no h]

theorem consented_iff {consent : Bool}
    (h : Relayed (answerApi config assumeYes) s asked log last) (hasked : consents asked = [consent]) :
    Consented assumeYes log ↔ consent = true := by
  cases assumeYes with
  | true =>
    have hyes := (consents_of_relayed_yes h).2 consent (by simp [hasked])
    simp [Consented, hyes]
  | false =>
    have hlines := consents_of_relayed_no h
    rw [hasked] at hlines
    obtain ⟨line, hline, rfl⟩ := List.map_eq_singleton_iff.1 hlines.symm
    cases line <;> simp [Consented, hline, isConsent]

/-! ## Calls on the wire -/

/-- The calls are made one after the other in the log, each with the answer that the log has for it,
and nothing else is sent. -/
def Conducts (config : Config) (assumeYes : Bool) (s : SessionStore) (calls : List AnsweredCall)
    (log : List (Exchange Host)) (last : SessionStore) : Prop :=
  ∃ asked relayed rest, log = relayed ++ rest ∧ answeredCalls asked = calls ∧
    Relayed (answerApi config assumeYes) s asked relayed last ∧ readings rest = [] ∧
    exchanges rest = []

theorem exchanges_of_not_call {q : Api.Question} (hq : ∀ request, q ≠ .call request)
    {r : Api.Answer q} (h : (answerApi config assumeYes q s).Runs log (r, last)) :
    exchanges log = [] := by
  obtain ⟨-, -, hsent⟩ := silent_of_not_call hq h
  rw [Http.Client.sent_eq_map] at hsent
  exact List.map_eq_nil_iff.1 hsent

theorem exchanges_of_prepared {m : Message} {outcome : request.Outcome}
    (hprepared : prepared config last.held.token request = .ok m)
    (h : (Http.Client.call config request s).Runs log (outcome, last)) :
    ∃ reply, exchanges log = [(m, reply)] ∧ outcome = received request (arrived reply) := by
  rcases hpath : request.path? with _ | path
  · obtain ⟨user, password, rfl⟩ := Request.exists_of_path?_eq_none hpath
    obtain ⟨answer, first, rest, rfl, hsend, hdone⟩ := Dialogue.runs_bind_iff.1 h
    rw [prepared] at hprepared
    rw [hprepared] at hsend
    obtain ⟨reply, rfl, rfl⟩ := Http.Client.runs_send_ok_iff.1 hsend
    obtain ⟨rfl, hresult⟩ := Dialogue.runs_done_iff.1 hdone
    exact ⟨reply, rfl, congrArg Prod.fst hresult⟩
  · rcases Http.Client.exchanges_of_call hpath h with
      ⟨fault, hfault, -⟩ | ⟨m', reply, hm', hexchanges, houtcome⟩
    · cases hprepared.symm.trans hfault
    · obtain rfl := Except.ok.inj (hprepared.symm.trans hm')
      exact ⟨reply, hexchanges, houtcome⟩

theorem forall₂_served (h : Relayed (answerApi config assumeYes) s asked log last)
    (haddressed : Addressed config (callsOf asked)) {more : List FileContent}
    (hsendable : s.Sendable (readings log ++ more)) :
    List.Forall₂ (Served config) (answeredCalls asked) (exchanges log) := by
  induction h with
  | nil s => exact .nil
  | @cons q r s mid last asked first rest hfirst _ ih =>
    rw [exchanges_append]
    rw [readings_append, List.append_assoc] at hsendable
    cases q with
    | call request =>
      obtain ⟨hrequest, hrest⟩ := List.forall_mem_cons.1 haddressed
      have hmid := SessionStore.sendable_before request hsendable
      rw [before_of_call hfirst] at hmid
      obtain ⟨m, hm⟩ := isOk_iff.1 hrequest
      obtain ⟨m', hm'⟩ := Http.Client.exists_prepared hmid.held hm
      obtain ⟨reply, hexchanges, hanswered⟩ := exchanges_of_prepared hm' hfirst
      rw [hexchanges]
      exact .cons ⟨Http.Client.carries_of_prepared hm', hanswered⟩ (ih hrest hmid)
    | report event | confirm title message =>
      obtain ⟨rfl, hreadings, -⟩ := silent_of_not_call (by nofun) hfirst
      rw [hreadings] at hsendable
      rw [exchanges_of_not_call (by nofun) hfirst]
      exact ih haddressed hsendable

namespace Conducts

/-- What is sent for the calls is prepared from them and from what the session file says. -/
theorem departing_eq (h : Conducts config assumeYes s calls log last) :
    departing config s (readings log) (calls.map Sigma.fst) = (sent log, last) := by
  obtain ⟨asked, relayed, rest, rfl, rfl, hrelayed, hreadings, hexchanges⟩ := h
  have hsent : sent rest = [] := by rw [Http.Client.sent_eq_map, hexchanges, List.map_nil]
  rw [readings_append, hreadings, Http.Client.sent_append, hsent, List.append_nil (sent relayed),
    ← callsOf_eq_map]
  exact departing_of_relayed hrelayed []

/-- Every call goes out if its request can be made, and is answered by the reply to it. -/
theorem served (h : Conducts config assumeYes s calls log last)
    (haddressed : Addressed config (calls.map Sigma.fst)) (hsendable : s.Sendable (readings log)) :
    List.Forall₂ (Served config) calls (exchanges log) := by
  obtain ⟨asked, relayed, rest, rfl, rfl, hrelayed, hreadings, hexchanges⟩ := h
  rw [← callsOf_eq_map] at haddressed
  rw [readings_append, hreadings] at hsendable
  rw [exchanges_append, hexchanges, List.append_nil]
  exact forall₂_served hrelayed haddressed hsendable

end Conducts

end Console

namespace History

/-! ## The calls of a reversion -/

variable {hash : String} {h h' : History} {asked : List (Exchange Api)}

/-- A version becomes the current one if the server accepts it, and then the versions are loaded. -/
theorem runs_setCurrent {outcome : Except ApiError Unit}
    (hruns : (h.setCurrent hash).Runs asked (outcome, h')) :
    consents asked = [] ∧
      ((∃ cause, outcome = .error cause ∧ answeredCalls asked = [⟨selecting hash, .error cause⟩]) ∨
        (outcome = .ok () ∧ ∃ listed : Except ApiError Json,
          answeredCalls asked = [⟨selecting hash, .ok ()⟩, ⟨loading, listed⟩])) := by
  cases runs_setCurrent_iff.1 hruns with
  | rejected cause => exact ⟨rfl, .inl ⟨cause, rfl, rfl⟩⟩
  | accepted listed =>
    unfold unreloaded
    rcases listed.bind ofJson with cause | fetched <;> exact ⟨rfl, .inr ⟨rfl, listed, rfl⟩⟩

/-- Without consent nothing is called. -/
theorem runs_requestRevert {outcome : Except ApiError RevertOutcome}
    (hruns : (h.requestRevert hash).Runs asked (outcome, h')) :
    (consents asked = [false] ∧ answeredCalls asked = [] ∧ outcome = .ok .cancelled) ∨
      (consents asked = [true] ∧
        ((∃ cause, outcome = .error cause ∧
            answeredCalls asked = [⟨selecting hash, .error cause⟩]) ∨
          (outcome = .ok .reverted ∧ ∃ listed : Except ApiError Json,
            answeredCalls asked = [⟨selecting hash, .ok ()⟩, ⟨loading, listed⟩]))) := by
  rcases runs_requestRevert_iff.1 hruns with
    ⟨rfl, rfl, -⟩ | ⟨rest, selected, rfl, hselection, rfl⟩
  · exact .inl ⟨rfl, rfl, rfl⟩
  obtain ⟨hconsents, hcalls⟩ := runs_setCurrent (runs_setCurrent_iff.2 hselection)
  refine .inr ⟨congrArg (true :: ·) hconsents, ?_⟩
  rcases hcalls with ⟨cause, rfl, hcalls⟩ | ⟨rfl, listed, hcalls⟩
  · exact .inl ⟨cause, rfl, hcalls⟩
  · exact .inr ⟨rfl, listed, hcalls⟩

end History

open History (loading selecting)

variable {hash : String} {calls : List AnsweredCall}

/-- The call for all versions was answered with versions. -/
def IsListed : AnsweredCall → Prop
  | ⟨.get path, listed⟩ =>
    path = Family.version.listing ∧ ∃ history, listed.bind History.ofJson = .ok history
  | _ => False

/-- The server accepted the version as the current one. -/
def IsAccepted (hash : String) : AnsweredCall → Prop
  | ⟨.post path body, outcome⟩ => path = Family.version.path hash ∧ body = none ∧ outcome = .ok ()
  | _ => False

theorem isListed_iff {listed : Except ApiError Json} :
    IsListed ⟨loading, listed⟩ ↔ ∃ history, listed.bind History.ofJson = .ok history :=
  and_iff_right rfl

theorem not_isAccepted_loading {listed : Except ApiError Json} : ¬IsAccepted hash ⟨loading, listed⟩ :=
  id

theorem isAccepted_iff {outcome : Except ApiError Unit} :
    IsAccepted hash ⟨selecting hash, outcome⟩ ↔ outcome = .ok () := by
  simp [IsAccepted]

theorem selecting_ne_loading : selecting hash ≠ loading := by
  simp

/-- The courses that going back to a version can take: the calls with their answers, what the
operator said if they were asked, and the outcome. -/
inductive Reversion (hash : String) :
    List AnsweredCall → List Bool → Except ApiError RevertOutcome → Prop where
  | unlisted {listed : Except ApiError Json} {cause : ApiError} :
      listed.bind History.ofJson = .error cause →
        Reversion hash [⟨loading, listed⟩] [] (.error cause)
  | cancelled {listed : Except ApiError Json} {history : History} :
      listed.bind History.ofJson = .ok history →
        Reversion hash [⟨loading, listed⟩] [false] (.ok .cancelled)
  | refused {listed : Except ApiError Json} {history : History} {cause : ApiError} :
      listed.bind History.ofJson = .ok history →
        Reversion hash [⟨loading, listed⟩, ⟨selecting hash, .error cause⟩] [true] (.error cause)
  | reverted {listed relisted : Except ApiError Json} {history : History} :
      listed.bind History.ofJson = .ok history →
        Reversion hash [⟨loading, listed⟩, ⟨selecting hash, .ok ()⟩, ⟨loading, relisted⟩] [true]
          (.ok .reverted)

namespace Reversion

variable {consents : List Bool} {outcome : Except ApiError RevertOutcome}

theorem requests_mem (h : Reversion hash calls consents outcome) :
    calls.map Sigma.fst ∈
      [[loading], [loading, selecting hash], [loading, selecting hash, loading]] := by
  cases h <;> simp

theorem length_consents_le (h : Reversion hash calls consents outcome) : consents.length ≤ 1 := by
  cases h <;> simp

theorem addressed {config : Config} (h : Reversion hash calls consents outcome)
    (haddressed : Console.Addressed config [loading, selecting hash]) :
    Console.Addressed config (calls.map Sigma.fst) := by
  have hsubset : calls.map Sigma.fst ⊆ [loading, selecting hash] := by cases h <;> simp
  exact fun request hrequest => haddressed request (hsubset hrequest)

theorem selecting_mem_iff (h : Reversion hash calls consents outcome) {consented : Prop}
    (hconsented : ∀ consent, consents = [consent] → (consented ↔ consent = true)) :
    selecting hash ∈ calls.map Sigma.fst ↔
      (∃ call ∈ calls.head?, IsListed call) ∧ consented := by
  cases h with
  | unlisted hlisted => simp [isListed_iff, hlisted, selecting_ne_loading]
  | cancelled _ => simp [hconsented false rfl, selecting_ne_loading]
  | refused hlisted | reverted hlisted => simp [isListed_iff, hlisted, hconsented true rfl]

theorem reloads_iff (h : Reversion hash calls consents outcome) :
    calls.map Sigma.fst = [loading, selecting hash, loading] ↔
      ∃ call ∈ calls, IsAccepted hash call := by
  cases h <;> simp [not_isAccepted_loading, isAccepted_iff]

theorem succeeds_iff (h : Reversion hash calls consents outcome) :
    (∃ result, outcome = .ok result) ↔ (∃ call ∈ calls.head?, IsListed call) ∧
      (selecting hash ∈ calls.map Sigma.fst → ∃ call ∈ calls, IsAccepted hash call) := by
  cases h with
  | unlisted hlisted => simp [isListed_iff, hlisted]
  | cancelled hlisted => simp [isListed_iff, hlisted, selecting_ne_loading]
  | refused hlisted => simp [not_isAccepted_loading, isAccepted_iff]
  | reverted hlisted => simp [isListed_iff, hlisted, isAccepted_iff]

end Reversion

namespace Console

variable {config : Config} {hash : String} {assumeYes : Bool} {s last : SessionStore}
  {asked : List (Exchange Api)} {calls : List AnsweredCall} {log : List (Exchange Host)}
  {answer : Except CommandError Unit}

/-- A version that is not among the loaded ones is worth a warning, and no more. -/
def warnOfUnknown (history : History) (hash : String) : Dialogue Api Unit :=
  if (history.snapshot? hash).isNone then Api.report (.unknownVersion hash) else pure ()

theorem fetchAndRevert_eq (hash : String) :
    fetchAndRevert hash = (do
      match ← History.empty.fetch with
      | (.error cause, _) => pure (.error cause)
      | (.ok _, history) =>
        warnOfUnknown history hash
        Prod.fst <$> history.requestRevert hash) := by
  refine congrArg (History.empty.fetch >>= ·) (funext fun fetched => ?_)
  rcases fetched with ⟨cause | count, history⟩
  · rfl
  · simp only [warnOfUnknown, map_eq_pure_bind]
    split <;> rfl

theorem runs_warnOfUnknown {history : History} (h : (warnOfUnknown history hash).Runs asked ()) :
    answeredCalls asked = [] ∧ consents asked = [] := by
  unfold warnOfUnknown at h
  split at h
  · obtain rfl := Dialogue.runs_question_iff.1 h
    exact ⟨rfl, rfl⟩
  · obtain ⟨rfl, -⟩ := Dialogue.runs_done_iff.1 h
    exact ⟨rfl, rfl⟩

theorem reversion_of_runs {outcome : Except ApiError RevertOutcome}
    (h : (fetchAndRevert hash).Runs asked outcome) :
    Reversion hash (answeredCalls asked) (consents asked) outcome := by
  rw [fetchAndRevert_eq] at h
  obtain ⟨⟨counted, history⟩, first, rest, rfl, hfetch, hrest⟩ := Dialogue.runs_bind_iff.1 h
  obtain ⟨listed, rfl, hcounted, -⟩ := History.runs_fetch_iff.1 hfetch
  cases hlisted : listed.bind History.ofJson with
  | error cause =>
    rw [hlisted, except_map_error] at hcounted
    subst hcounted
    obtain ⟨rfl, rfl⟩ := Dialogue.runs_done_iff.1 hrest
    exact .unlisted hlisted
  | ok fetched =>
    rw [hlisted, except_map_ok] at hcounted
    subst hcounted
    obtain ⟨⟨⟩, warning, requesting, rfl, hwarn, hrequest⟩ := Dialogue.runs_bind_iff.1 hrest
    obtain ⟨⟨_, history'⟩, hrequest, rfl⟩ := Dialogue.runs_map_iff.1 hrequest
    obtain ⟨hnothing, hnobody⟩ := runs_warnOfUnknown hwarn
    simp only [answeredCalls_append, consents_append, hnothing, hnobody, List.nil_append]
    rcases History.runs_requestRevert hrequest with
      ⟨hconsents, hcalls, rfl⟩ | ⟨hconsents, ⟨cause, rfl, hcalls⟩ | ⟨rfl, relisted, hcalls⟩⟩
    · rw [hconsents, hcalls]
      exact .cancelled hlisted
    · rw [hconsents, hcalls]
      exact .refused hlisted
    · rw [hconsents, hcalls]
      exact .reverted hlisted

/-! ## The command -/

/-- A run of the command takes one of the courses. -/
theorem runs_revert (h : (revert config hash assumeYes s).Runs log (answer, last)) :
    ∃ calls consents outcome, Reversion hash calls consents outcome ∧
      Conducts config assumeYes s calls log last ∧
      (linesRead log).length ≤ consents.length ∧
      (∀ consent, consents = [consent] → (Consented assumeYes log ↔ consent = true)) ∧
      (answer = .ok () ↔ ∃ result, outcome = .ok result) := by
  obtain ⟨outcome, mid, relayed, printing, rfl, hserver, hthen⟩ := runs_bind_iff.1 h
  obtain ⟨asked, hasked, hrelayed⟩ := Dialogue.runs_interpret_iff.1 hserver
  obtain ⟨rfl, hprinting, hanswer⟩ : last = mid ∧
      (readings printing = [] ∧ exchanges printing = [] ∧ linesRead printing = []) ∧
      (answer = .ok () ↔ ∃ result, outcome = .ok result) := by
    rcases runs_andThen hthen with ⟨cause, rfl, rfl, rfl, rfl⟩ | ⟨result, rfl, rfl, hprint⟩
    · exact ⟨rfl, ⟨rfl, rfl, rfl⟩, by simp⟩
    · cases result with
      | reverted | cancelled =>
        obtain ⟨rfl, rfl⟩ := runs_printLine_iff.1 hprint
        exact ⟨rfl, ⟨rfl, rfl, rfl⟩, by simp⟩
  obtain ⟨hreadings, hexchanges, hlines⟩ := hprinting
  refine ⟨_, _, outcome, reversion_of_runs hasked,
    ⟨asked, relayed, printing, rfl, rfl, hrelayed, hreadings, hexchanges⟩, ?_, ?_, hanswer⟩
  · rw [linesRead_append, hlines, List.append_nil]
    exact length_linesRead_le hrelayed
  intro consent hconsent
  rw [← consented_iff hrelayed hconsent, Consented, Consented, linesRead_append, hlines,
    List.append_nil]

/-- `revert` makes a version the current one exactly when it could load the versions and has consent,
with a call that has no body and goes to the path of that version. The loading after it is made
exactly when the server accepted, and nothing depends on how that one is answered. -/
theorem revert_is_gated (h : (revert config hash assumeYes s).Runs log (answer, last)) :
    ∃ calls : List AnsweredCall, Conducts config assumeYes s calls log last ∧
      departing config s (readings log) (calls.map Sigma.fst) = (sent log, last) ∧
      calls.map Sigma.fst ∈
        [[loading], [loading, selecting hash], [loading, selecting hash, loading]] ∧
      (selecting hash ∈ calls.map Sigma.fst ↔
        (∃ call ∈ calls.head?, IsListed call) ∧ Consented assumeYes log) ∧
      (linesRead log).length ≤ 1 ∧
      (calls.map Sigma.fst = [loading, selecting hash, loading] ↔
        ∃ call ∈ calls, IsAccepted hash call) ∧
      (answer = .ok () ↔ (∃ call ∈ calls.head?, IsListed call) ∧
        (selecting hash ∈ calls.map Sigma.fst → ∃ call ∈ calls, IsAccepted hash call)) ∧
      (Addressed config [loading, selecting hash] → s.Sendable (readings log) →
        List.Forall₂ (Served config) calls (exchanges log)) := by
  obtain ⟨calls, consents, outcome, hcourse, hconducts, hlines, hconsented, hanswer⟩ :=
    runs_revert h
  exact ⟨calls, hconducts, hconducts.departing_eq, hcourse.requests_mem,
    hcourse.selecting_mem_iff hconsented, Nat.le_trans hlines hcourse.length_consents_le,
    hcourse.reloads_iff, hanswer.trans hcourse.succeeds_iff,
    fun haddressed => hconducts.served (hcourse.addressed haddressed)⟩

/-- A host whose server has no versions, accepts a version as the current one and then closes the
connection, with an operator who types this line. -/
def serverWithoutVersions (line : String) : MemoryHost where
  disk := .empty
  directory := []
  server := ("localhost", 8081)
  routes := .ofList [("GET /api/config/version/*", [⟨.reply ⟨200, "null"⟩, none⟩, ⟨.drop, none⟩])]
  otherwise := .plain
  received := []
  input := Text.utf8 line
  output := ""
  log := (none, "")

/-- A version that the server did not list becomes the current one after a `YES`, even though the
versions cannot be loaded again. -/
theorem revert_is_gated_by_yes :
    ∃ log last, (revert .standard "abc" false .inMemory).Runs log (.ok (), last) ∧
      Consented false log ∧
      List.Forall₂ (Carries .standard) [loading, selecting "abc", loading] (sent log) ∧
      (exchanges log).map (·.2.isOk) = [true, true, false] := by
  obtain ⟨log, answer, last, h, hreplies, hnothing⟩ : ∃ log answer last,
      (revert .standard "abc" false .inMemory).Runs log (answer, last) ∧
        (exchanges log).map (·.2.isOk) = [true, true, false] ∧ readings log = [] :=
    ⟨_, _, _, Dialogue.runs_trace MemoryHost.answer _ (serverWithoutVersions " YES \n"),
      by decide +kernel, List.isEmpty_iff.1 (by decide +kernel)⟩
  obtain ⟨calls, -, -, hrequests, hselects, -, hreloads, hanswer, hserved⟩ := revert_is_gated h
  have haddressed : Addressed .standard [loading, selecting "abc"] := by decide +kernel
  have hsendable : SessionStore.inMemory.Sendable (readings log) := by
    rw [hnothing]
    exact ⟨(fun t ht => nomatch ht), (fun content hcontent => nomatch hcontent)⟩
  have hforall := hserved haddressed hsendable
  have hlength : (calls.map Sigma.fst).length = 3 := by
    rw [List.length_map, hforall.length_eq]
    simpa using congrArg List.length hreplies
  have hthree : calls.map Sigma.fst = [loading, selecting "abc", loading] := by
    simp only [List.mem_cons, List.not_mem_nil, or_false] at hrequests
    rcases hrequests with hone | htwo | hthree
    · simp [hone] at hlength
    · simp [htwo] at hlength
    · exact hthree
  obtain ⟨hlisted, hconsented⟩ := hselects.1 (by simp [hthree])
  obtain rfl := hanswer.2 ⟨hlisted, fun _ => hreloads.1 hthree⟩
  refine ⟨log, last, h, hconsented, ?_, hreplies⟩
  rw [← hthree, Http.Client.sent_eq_map, List.forall₂_map_left_iff, List.forall₂_map_right_iff]
  exact hforall.imp fun _ _ hserved => hserved.carries

end Console

end AlertConsole
