import AlertConsole.Host.Memory
import AlertConsole.Proofs.Catalog
import AlertConsole.Proofs.Console.Arguments
import AlertConsole.Proofs.Console.Calls

/-!
# Saving a policy from the command line

A policy is saved by one call. Another call before it looks up the escalations on the server when the
policy has any to notify; what comes of it is reported and changes nothing (`saved_alike`). A
policy without a name is looked up as well, and only then refused (`unsent_iff`).
-/

namespace AlertConsole

open Dialogue (Relayed)
open Http.Client (Carries exchanges prepared sent)

/-! ## Calls of a submission -/

namespace Draft

variable {d d' : Draft} {asked : List (Exchange Api)} {outcome : Except SubmitError String}

theorem runs_submit_of_blank (hname : Text.isBlankText d.name = true)
    (h : d.submit.Runs asked (outcome, d')) :
    asked = [] ∧ outcome = .error (.invalid .missingName) := by
  rw [submit, payload_of_blank hname] at h
  obtain ⟨rfl, hresult⟩ := Dialogue.runs_done_iff.1 h
  exact ⟨rfl, congrArg Prod.fst hresult⟩

theorem runs_submit_of_name (hname : Text.isBlankText d.name = false)
    (h : d.submit.Runs asked (outcome, d')) :
    callsOf asked = [request d.kind d.name d.body] ∧
      ∀ cause, outcome ≠ .error (.invalid cause) := by
  rw [submit, payload_of_name hname] at h
  obtain ⟨answer, first, rest, rfl, hpost, hrest⟩ := Dialogue.runs_bind_iff.1 h
  obtain rfl := Dialogue.runs_question_iff.1 hpost
  rcases answer with cause | ⟨⟩
  · obtain ⟨rfl, hresult⟩ := Dialogue.runs_done_iff.1 hrest
    obtain ⟨rfl, -⟩ := Prod.mk.inj hresult
    refine ⟨rfl, fun cause hcause => ?_⟩
    cases hcause
  · obtain ⟨⟨⟩, report, last, rfl, hreport, hdone⟩ := Dialogue.runs_bind_iff.1 hrest
    obtain rfl := Dialogue.runs_question_iff.1 hreport
    obtain ⟨rfl, hresult⟩ := Dialogue.runs_done_iff.1 hdone
    obtain ⟨rfl, -⟩ := Prod.mk.inj hresult
    refine ⟨rfl, fun cause hcause => ?_⟩
    cases hcause

end Draft

namespace Console

variable {config : Config} {a : PolicyArguments} {d : PolicyDraft} {s s' : SessionStore}
  {asked : List (Exchange Api)} {log : List (Exchange Host)}
  {answer : Except CommandError Unit}

theorem callsOf_reportAll {events : List Event} (h : (reportAll events).Runs asked ()) :
    callsOf asked = [] := by
  induction events generalizing asked with
  | nil =>
    obtain ⟨rfl, -⟩ := Dialogue.runs_done_iff.1 h
    rfl
  | cons event rest ih =>
    obtain ⟨⟨⟩, first, later, rfl, hreport, hrest⟩ := Dialogue.runs_bind_iff.1 h
    obtain rfl := Dialogue.runs_question_iff.1 hreport
    rw [callsOf_append, ih hrest]
    rfl

theorem runs_escalationNames {known : Except ApiError (List String)}
    (h : Catalog.escalationNames.Runs asked known) :
    ∃ answer, asked = [⟨.call (.get Family.escalation.listing), answer⟩] := by
  obtain ⟨listed, first, rest, rfl, hlist, hdone⟩ := Dialogue.runs_bind_iff.1 h
  obtain ⟨answer, rfl, -⟩ := Catalog.runs_listing_iff.1 hlist
  obtain ⟨rfl, -⟩ := Dialogue.runs_done_iff.1 hdone
  exact ⟨answer, List.append_nil _⟩

theorem callsOf_checkTargets (h : (checkTargets d).Runs asked ()) :
    callsOf asked = [.get Family.escalation.listing] := by
  obtain ⟨known, first, rest, rfl, hnames, hrest⟩ := Dialogue.runs_bind_iff.1 h
  obtain ⟨answer, rfl⟩ := runs_escalationNames hnames
  suffices hnone : callsOf rest = [] by
    rw [callsOf_append, hnone]
    rfl
  rcases known with cause | known
  · rw [Dialogue.runs_question_iff.1 hrest]
    rfl
  · exact callsOf_reportAll hrest

theorem callsOf_checkPolicy (h : (checkPolicy d).Runs asked ()) :
    callsOf asked = if targets d = [] then [] else [.get Family.escalation.listing] := by
  unfold checkPolicy at h
  by_cases htargets : targets d = []
  · rw [if_pos htargets]
    rw [if_neg (not_not.2 htargets)] at h
    exact callsOf_reportAll h
  · rw [if_neg htargets]
    rw [if_pos htargets] at h
    obtain ⟨⟨⟩, first, rest, rfl, hcheck, hreports⟩ := Dialogue.runs_bind_iff.1 h
    rw [callsOf_append, callsOf_checkTargets hcheck, callsOf_reportAll hreports]
    rfl

/-! ## Calls of the command -/

/-- The check of a policy and its submission, as one piece of work. -/
def savePolicy (d : PolicyDraft) : Dialogue Api (Except SubmitError String) := do
  checkPolicy d
  let (outcome, _) ← (Draft.policy d).submit
  pure outcome

theorem createPolicy_of_valid (config : Config) (hvalid : a.Valid) :
    createPolicy config a = (do
      let outcome ← onServer config (savePolicy a.draft)
      andThen outcome .submit fun name => printLine ("saved policy " ++ name)) := by
  rw [createPolicy, policyDraft_eq, if_pos hvalid]
  simp only [onServer, withApi, savePolicy, Dialogue.interpret_bind, Dialogue.pure_eq,
    Dialogue.interpret_done, bind_assoc, pure_bind]

theorem createPolicy_of_not_valid (config : Config) (hvalid : ¬a.Valid) :
    createPolicy config a = pure (.error (.draft .emptyChip)) := by
  rw [createPolicy, policyDraft_eq, if_neg hvalid]

/-- Whether the command fails for its arguments is up to them alone. -/
theorem runs_savePolicy {outcome : Except SubmitError String}
    (h : (savePolicy a.draft).Runs asked outcome) :
    callsOf asked = a.lookups ++ (if Text.isBlankText a.name then [] else [a.saving]) ∧
      ((∃ cause, outcome = .error (.invalid cause)) ↔ Text.isBlankText a.name = true) := by
  obtain ⟨⟨⟩, first, rest, rfl, hcheck, hrest⟩ := Dialogue.runs_bind_iff.1 h
  obtain ⟨⟨result, d'⟩, second, last, rfl, hsubmit, hdone⟩ := Dialogue.runs_bind_iff.1 hrest
  obtain ⟨rfl, rfl⟩ := Dialogue.runs_done_iff.1 hdone
  rw [List.append_nil, callsOf_append, callsOf_checkPolicy hcheck, targets_draft]
  rcases hname : Text.isBlankText a.name with _ | _
  · obtain ⟨hcalls, houtcome⟩ :=
      Draft.runs_submit_of_name (show Text.isBlankText (Draft.policy a.draft).name = false from hname)
        hsubmit
    rw [hcalls]
    exact ⟨rfl, fun ⟨cause, hcause⟩ => absurd hcause (houtcome cause), fun h => nomatch h⟩
  · obtain ⟨rfl, rfl⟩ :=
      Draft.runs_submit_of_blank (show Text.isBlankText (Draft.policy a.draft).name = true from hname)
        hsubmit
    exact ⟨rfl, fun _ => rfl, fun _ => ⟨.missingName, rfl⟩⟩

/-- The arguments are at fault, not the server. -/
inductive CommandError.IsValidation : CommandError → Prop where
  | draft (cause : DraftError) : IsValidation (.draft cause)
  | submit (cause : DraftError) : IsValidation (.submit (.invalid cause))

/-- Which calls the command makes, and whether it fails for its arguments, is up to these alone. -/
theorem runs_createPolicy (h : (createPolicy config a s).Runs log (answer, s')) :
    Makes config s a.calls log s' ∧
      ((∃ cause, answer = .error cause ∧ cause.IsValidation) ↔
        ¬a.Valid ∨ Text.isBlankText a.name = true) := by
  by_cases hvalid : a.Valid
  · rw [createPolicy_of_valid config hvalid] at h
    obtain ⟨outcome, mid, relayed, rest, rfl, hserver, hthen⟩ := runs_bind_iff.1 h
    obtain ⟨asked, hasked, hrelayed⟩ := Dialogue.runs_interpret_iff.1 hserver
    obtain ⟨hcalls, hinvalid⟩ := runs_savePolicy hasked
    simp only [PolicyArguments.calls, hvalid, if_true, not_true_eq_false, false_or, ← hinvalid]
    rcases runs_andThen hthen with ⟨cause, rfl, rfl, rfl, rfl⟩ | ⟨name, rfl, rfl, hprint⟩
    · refine ⟨⟨asked, relayed, [], rfl, hcalls, hrelayed, rfl, rfl⟩, ?_, ?_⟩
      · rintro ⟨_, ⟨⟩, ⟨⟩⟩
        exact ⟨_, rfl⟩
      · rintro ⟨invalid, ⟨⟩⟩
        exact ⟨_, rfl, .submit invalid⟩
    · obtain ⟨rfl, rfl⟩ := runs_printLine_iff.1 hprint
      refine ⟨⟨asked, relayed, _, rfl, hcalls, hrelayed, rfl, rfl⟩, ?_, ?_⟩
      · rintro ⟨_, ⟨⟩, -⟩
      · rintro ⟨_, ⟨⟩⟩
  · rw [createPolicy_of_not_valid config hvalid] at h
    obtain ⟨rfl, hresult⟩ := Dialogue.runs_done_iff.1 h
    obtain ⟨rfl, rfl⟩ := Prod.mk.inj hresult
    rw [PolicyArguments.calls, if_neg hvalid]
    exact ⟨⟨[], [], [], rfl, rfl, .nil s', rfl, rfl⟩, fun _ => .inl hvalid,
      fun _ => ⟨_, rfl, .draft .emptyChip⟩⟩

/-! ## What is saved -/

/-- A policy for one service, whose condition notifies the escalation `page`. -/
def paging (name service : String) : PolicyArguments where
  name := name
  matchChips := [("service", service)]
  notMatchChips := []
  notMatchOccurrences := 1
  crit := ⟨[("greater", "90")], 3, some "page"⟩
  warn := ⟨[], 1, none⟩

/-- A host with a server that treats a request for the escalations in this way, and accepts any
other. -/
def serverListing (conduct : Conduct) : MemoryHost where
  disk := .empty
  directory := []
  server := ("localhost", 8081)
  routes := .ofList [("GET /api/escalation/config/*", [⟨conduct, none⟩])]
  otherwise := .plain
  received := []
  input := []
  output := ""
  log := (none, "")

/-- What is exchanged when a policy is created on such a host. -/
def creating (a : PolicyArguments) (conduct : Conduct) : List (Exchange Host) :=
  (createPolicy .standard a .inMemory).trace MemoryHost.answer (serverListing conduct)

theorem exists_runs_creating (a : PolicyArguments) (conduct : Conduct) :
    ∃ answer last, (createPolicy .standard a .inMemory).Runs (creating a conduct) (answer, last) := by
  have hruns := Dialogue.runs_trace MemoryHost.answer (createPolicy .standard a .inMemory)
    (serverListing conduct)
  exact ⟨_, _, hruns⟩

/-- Whatever the server answers, a policy with a name is saved by one call, which comes last. Before
it the escalations are looked up, once, if there are any to notify, and not at all otherwise. Both
calls go out if their requests can be made. What goes out is the same in any two runs that find the
same in the session file. -/
theorem saved_alike (hname : Text.isBlankText a.name = false) (hvalid : a.Valid)
    (config : Config) (s : SessionStore) :
    (∀ log answer last, (createPolicy config a s).Runs log (answer, last) →
      Makes config s (a.lookups ++ [a.saving]) log last ∧
      (Addressed config (a.lookups ++ [a.saving]) → s.Sendable (readings log) →
        List.Forall₂ (Carries config) (a.lookups ++ [a.saving]) (sent log))) ∧
    ∀ log log' answer answer' last last', (createPolicy config a s).Runs log (answer, last) →
      (createPolicy config a s).Runs log' (answer', last') → readings log = readings log' →
      sent log = sent log' := by
  have hcalls : a.calls = a.lookups ++ [a.saving] := by
    rw [PolicyArguments.calls, if_pos hvalid, hname]
    rfl
  have hmakes : ∀ log answer last, (createPolicy config a s).Runs log (answer, last) →
      Makes config s (a.lookups ++ [a.saving]) log last := by
    intro log answer last h
    rw [← hcalls]
    exact (runs_createPolicy h).1
  refine ⟨fun log answer last h => ?_, ?_⟩
  · exact ⟨hmakes log answer last h, (hmakes log answer last h).forall₂_carries⟩
  · intro log log' answer answer' last last' h h' hreadings
    have hdeparting := (hmakes log answer last h).departing_eq
    have hdeparting' := (hmakes log' answer' last' h').departing_eq
    rw [hreadings, hdeparting'] at hdeparting
    exact (congrArg Prod.fst hdeparting).symm

/-- Two servers, one of which lists the escalations while the other closes the connection, are sent
the same. -/
theorem saved_alike_without_listing :
    ∃ log log', (∃ answer last,
        (createPolicy .standard (paging "disk" "db") .inMemory).Runs log (answer, last)) ∧
      (∃ answer last,
        (createPolicy .standard (paging "disk" "db") .inMemory).Runs log' (answer, last)) ∧
      (exchanges log).map (·.2.isOk) = [true, true] ∧
      (exchanges log').map (·.2.isOk) = [false, true] ∧
      sent log = sent log' ∧
      List.Forall₂ (Carries .standard)
        [.get Family.escalation.listing, (paging "disk" "db").saving] (sent log) := by
  let listed : Conduct := .reply ⟨200, "\x7b\"page\":[]\x7d"⟩
  obtain ⟨answer, last, h⟩ := exists_runs_creating (paging "disk" "db") listed
  obtain ⟨answer', last', h'⟩ := exists_runs_creating (paging "disk" "db") .drop
  have hname : Text.isBlankText (paging "disk" "db").name = false := by decide
  have hvalid : (paging "disk" "db").Valid := by decide
  obtain ⟨hsaved, halike⟩ := saved_alike hname hvalid .standard .inMemory
  have hnothing : readings (creating (paging "disk" "db") listed) = [] :=
    List.isEmpty_iff.1 (by decide +kernel)
  have hnothing' : readings (creating (paging "disk" "db") .drop) = [] :=
    List.isEmpty_iff.1 (by decide +kernel)
  have haddressed : Addressed .standard
      ((paging "disk" "db").lookups ++ [(paging "disk" "db").saving]) := by
    decide +kernel
  have hsendable : SessionStore.inMemory.Sendable
      (readings (creating (paging "disk" "db") listed)) := by
    rw [hnothing]
    exact ⟨(fun t ht => nomatch ht), (fun content hcontent => nomatch hcontent)⟩
  refine ⟨_, _, ⟨answer, last, h⟩, ⟨answer', last', h'⟩, by decide +kernel, by decide +kernel, ?_, ?_⟩
  · exact halike _ _ _ _ _ _ h h' (hnothing.trans hnothing'.symm)
  · exact (hsaved _ _ _ h).2 haddressed hsendable

/-! ## What is refused -/

/-- A command that fails for its arguments makes no call but the one that looks up the escalations,
and it makes that one unless a pair is blank or there is nobody to notify. -/
theorem unsent_iff {cause : CommandError} (hcause : cause.IsValidation)
    (h : (createPolicy config a s).Runs log (.error cause, s')) :
    Makes config s (if a.Valid then a.lookups else []) log s' ∧
      (sent log = [] ↔ ¬a.Valid ∨ a.targets = [] ∨
        ∃ fault, prepared config s'.held.token (.get Family.escalation.listing) = .error fault) := by
  obtain ⟨hmakes, hinvalid⟩ := runs_createPolicy h
  have hcalls : a.calls = if a.Valid then a.lookups else [] := by
    unfold PolicyArguments.calls
    split
    · next hvalid =>
      have hname := (hinvalid.1 ⟨cause, rfl, hcause⟩).resolve_left (not_not.2 hvalid)
      rw [if_pos hname, List.append_nil]
    · rfl
  rw [hcalls] at hmakes
  refine ⟨hmakes, ?_⟩
  by_cases hvalid : a.Valid
  · rw [if_pos hvalid, PolicyArguments.lookups] at hmakes
    by_cases htargets : a.targets = []
    · rw [if_pos htargets] at hmakes
      simp [hmakes.sent_of_none, htargets]
    · rw [if_neg htargets] at hmakes
      rw [hmakes.sent_of_one]
      rcases prepared config s'.held.token (.get Family.escalation.listing) with fault | m
      · simp [Except.toOption]
      · simp [Except.toOption, hvalid, htargets]
  · rw [if_neg hvalid] at hmakes
    simp [hmakes.sent_of_none, hvalid]

/-- A pair without a value is refused before anything is sent. -/
theorem unsent_with_blank_chip :
    ∃ log cause last, CommandError.IsValidation cause ∧
      (createPolicy .standard (paging "disk" " ") .inMemory).Runs log (.error cause, last) ∧
      sent log = [] := by
  obtain ⟨answer, last, h⟩ := exists_runs_creating (paging "disk" " ") .drop
  have hvalid : ¬(paging "disk" " ").Valid := by decide
  obtain ⟨cause, rfl, hcause⟩ := (runs_createPolicy h).2.2 (.inl hvalid)
  exact ⟨_, cause, last, hcause, h, (unsent_iff hcause h).2.2 (.inl hvalid)⟩

/-- A policy without a name is refused after the escalations were looked up. -/
theorem sent_without_name :
    ∃ log cause last, CommandError.IsValidation cause ∧
      (createPolicy .standard (paging " " "db") .inMemory).Runs log (.error cause, last) ∧
      sent log ≠ [] := by
  obtain ⟨answer, last, h⟩ := exists_runs_creating (paging " " "db") .drop
  have hname : Text.isBlankText (paging " " "db").name = true := by decide
  obtain ⟨cause, rfl, hcause⟩ := (runs_createPolicy h).2.2 (.inr hname)
  have hsent : (sent (creating (paging " " "db") .drop)).isEmpty = false := by decide +kernel
  refine ⟨_, cause, last, hcause, h, fun hnone => ?_⟩
  rw [hnone] at hsent
  cases hsent

end Console

end AlertConsole
