import AlertConsole.Proofs.Console.Saving
import AlertConsole.Proofs.Escalation.Lines

/-!
# Creating an escalation from the command line

An escalation is created by one call, whose document has a step for each line, or nothing is sent at
all: when the name is blank, and when a line cannot be read (`created_whole`).
-/

namespace AlertConsole

open Http.Client (Carries sent)

/-! ## Documents -/

/-- The document of a step: its type, the options of this type with the values of these texts, and
nothing else. -/
structure IsStepDocument (kind : StepType) (text : OptionField → String)
    (members : List (String × Json)) : Prop where
  ascending : Ascending members
  type : members.lookup "type" = some (.string kind.name)
  option : ∀ key, key ≠ "type" → members.lookup key =
    (kind.option? key).map fun option => option.transform.apply (text option)

theorem exists_isStepDocument (lines : List StepLine) (line : StepLine) :
    ∃ members, (EscalationDraft.stepOf lines line).toJson.canonical = .object members ∧
      IsStepDocument line.kind (textAfter (lines ++ [line]) line.kind) members := by
  have hfollows : (EscalationDraft.stepOf lines line).FollowsSchema := ⟨_, rfl⟩
  refine ⟨_, Step.canonical_toJson hfollows.isCanonical, ascending_sortEntries _, ?_, ?_⟩
  · rw [Decode.lookup_flattened, hfollows.get?_type]
    rfl
  · intro key hkey
    have hnamed : (EscalationDraft.stepOf lines line).named.reverse.lookup key = none := by
      simpa [Step.named] using hkey
    rw [Decode.lookup_flattened, hnamed, Option.or_none]
    exact StepType.get?_valued _ _ key

namespace Console

variable {config : Config} {name : String} {specs : List String} {lines : List StepLine}
  {s last : SessionStore} {log : List (Exchange Host)} {answer : Except CommandError Unit}

/-! ## Runs -/

theorem createEscalation_of_lines (config : Config) (name : String)
    (hlines : specs.mapM StepLine.read? = some lines) :
    createEscalation config name specs = (do
      let (outcome, _) ←
        onServer config (Draft.escalation (EscalationDraft.ofLines name lines)).submit
      andThen outcome .submit fun name =>
        printLine s!"saved escalation {name} ({specs.length} step(s))") := by
  have happly := EscalationDraft.applySpecs_eq (EscalationDraft.empty.setName name) specs
  rw [hlines, Option.map_some, toOption_eq_some_iff] at happly
  rw [createEscalation, happly]
  rfl

theorem createEscalation_of_unreadable (config : Config) (name : String)
    (hlines : specs.mapM StepLine.read? = none) :
    ∃ cause, createEscalation config name specs = pure (.error (.spec cause)) := by
  have happly := EscalationDraft.applySpecs_eq (EscalationDraft.empty.setName name) specs
  rw [hlines, Option.map_none] at happly
  rw [createEscalation]
  cases h : applySpecs (EscalationDraft.empty.setName name) specs with
  | error cause => exact ⟨cause, rfl⟩
  | ok d =>
    rw [h] at happly
    cases happly

theorem name_draft (name : String) (lines : List StepLine) :
    (Draft.escalation (EscalationDraft.ofLines name lines)).name = name :=
  EscalationDraft.name_ofLines name lines

/-- With lines that can be read, the draft is submitted, and nothing else happens to the server. -/
theorem runs_createEscalation (hlines : specs.mapM StepLine.read? = some lines)
    (h : (createEscalation config name specs s).Runs log (answer, last)) :
    ∃ asked outcome d', (Draft.escalation (EscalationDraft.ofLines name lines)).submit.Runs asked
        (outcome, d') ∧ Makes config s (callsOf asked) log last ∧
      ∀ cause, outcome = .error cause → answer = .error (.submit cause) := by
  rw [createEscalation_of_lines config name hlines] at h
  obtain ⟨⟨outcome, d'⟩, mid, relayed, rest, rfl, hserver, hthen⟩ := runs_bind_iff.1 h
  obtain ⟨asked, hasked, hrelayed⟩ := Dialogue.runs_interpret_iff.1 hserver
  refine ⟨asked, outcome, d', hasked, ?_⟩
  rcases runs_andThen hthen with ⟨cause, rfl, rfl, rfl, rfl⟩ | ⟨saved, rfl, rfl, hprint⟩
  · exact ⟨⟨asked, relayed, [], rfl, rfl, hrelayed, rfl, rfl⟩, by simp⟩
  · obtain ⟨rfl, rfl⟩ := runs_printLine_iff.1 hprint
    exact ⟨⟨asked, relayed, _, rfl, rfl, hrelayed, rfl, rfl⟩, by simp⟩

/-- A blank name or a line that cannot be read is refused before anything is called. -/
theorem runs_createEscalation_refused
    (hrefused : Text.isBlankText name = true ∨ ∃ spec ∈ specs, StepLine.read? spec = none)
    (h : (createEscalation config name specs s).Runs log (answer, last)) :
    (∃ cause, answer = .error cause) ∧ Makes config s [] log last := by
  cases hlines : specs.mapM StepLine.read? with
  | none =>
    obtain ⟨cause, hrefusal⟩ := createEscalation_of_unreadable config name hlines
    rw [hrefusal] at h
    obtain ⟨rfl, hresult⟩ := Dialogue.runs_done_iff.1 h
    obtain ⟨rfl, rfl⟩ := Prod.mk.inj hresult
    exact ⟨⟨_, rfl⟩, [], [], [], rfl, rfl, .nil last, rfl, rfl⟩
  | some lines =>
    have hname : Text.isBlankText name = true := by
      rcases hrefused with hname | hunreadable
      · exact hname
      · rw [mapM_eq_none_iff.2 hunreadable] at hlines
        cases hlines
    obtain ⟨asked, outcome, d', hsubmit, hmakes, hfails⟩ := runs_createEscalation hlines h
    rw [← name_draft name lines] at hname
    obtain ⟨rfl, rfl⟩ := Draft.runs_submit_of_blank hname hsubmit
    exact ⟨⟨_, hfails _ rfl⟩, hmakes⟩

theorem runs_createEscalation_posted (hname : Text.isBlankText name = false)
    (hlines : specs.mapM StepLine.read? = some lines)
    (h : (createEscalation config name specs s).Runs log (answer, last)) :
    Makes config s [.post (Family.escalation.path name)
      (some (Draft.escalation (EscalationDraft.ofLines name lines)).body)] log last := by
  obtain ⟨asked, outcome, d', hsubmit, hmakes, -⟩ := runs_createEscalation hlines h
  rw [← name_draft name lines] at hname
  rw [(Draft.runs_submit_of_name hname hsubmit).1, name_draft] at hmakes
  exact hmakes

/-- The documents of the steps of some lines. -/
def documents (name : String) (lines : List StepLine) : List Json :=
  (EscalationDraft.ofLines name lines).steps.map fun step => step.toJson.canonical

theorem body_ofLines (name : String) (lines : List StepLine) :
    (Draft.escalation (EscalationDraft.ofLines name lines)).body = .array (documents name lines) := by
  rw [Draft.body, Json.canonical_array, Json.canonicalItems_eq_map, List.map_map]
  rfl

theorem getElem?_documents (name : String) {i : Nat} {line : StepLine} (hline : lines[i]? = some line) :
    ∃ members, (documents name lines)[i]? = some (.object members) ∧
      IsStepDocument line.kind (textAfter (lines.take (i + 1)) line.kind) members := by
  have hstep := (EscalationDraft.steps_ofLines name lines).2 i line hline
  obtain ⟨members, hmembers, hdocument⟩ := exists_isStepDocument (lines.take i) line
  rw [List.take_add_one, hline]
  exact ⟨members, by simp [documents, hstep, hmembers], hdocument⟩

/-- An escalation is created by one call, with a step for each line, or nothing is sent at all. The
options of a step have what was assigned to them last, by its line or by one before. -/
theorem created_whole (config : Config) (name : String) (specs : List String) (s : SessionStore) :
    (Text.isBlankText name = true ∨ (∃ spec ∈ specs, StepLine.read? spec = none) →
      ∀ log answer last, (createEscalation config name specs s).Runs log (answer, last) →
        (∃ cause, answer = .error cause) ∧ Makes config s [] log last ∧ sent log = []) ∧
    ∀ lines, Text.isBlankText name = false →
      List.Forall₂ (fun spec line => StepLine.read? spec = some line) specs lines →
      ∃ documents, documents.length = specs.length ∧
        (∀ (i : Nat) (line : StepLine), lines[i]? = some line → ∃ members,
          documents[i]? = some (.object members) ∧
            IsStepDocument line.kind (textAfter (lines.take (i + 1)) line.kind) members) ∧
        ∀ log answer last, (createEscalation config name specs s).Runs log (answer, last) →
          Makes config s [.post (Family.escalation.path name) (some (.array documents))] log last ∧
          (Addressed config [.post (Family.escalation.path name) (some (.array documents))] →
            s.Sendable (readings log) → ∃ m, sent log = [m] ∧
              Carries config (.post (Family.escalation.path name) (some (.array documents))) m) := by
  refine ⟨fun hrefused log answer last h => ?_, fun lines hname hread => ?_⟩
  · obtain ⟨hfails, hmakes⟩ := runs_createEscalation_refused hrefused h
    exact ⟨hfails, hmakes, hmakes.sent_of_none⟩
  have hlength : (documents name lines).length = specs.length := by
    rw [documents, List.length_map, (EscalationDraft.steps_ofLines name lines).1, hread.length_eq]
  refine ⟨documents name lines, hlength, fun i line hline => getElem?_documents name hline, ?_⟩
  intro log answer last h
  have hmakes := runs_createEscalation_posted hname (mapM_eq_some_iff.2 hread) h
  rw [body_ofLines] at hmakes
  refine ⟨hmakes, fun haddressed hsendable => ?_⟩
  obtain ⟨m, rest, hcarries, hnil, hsent⟩ :=
    List.forall₂_cons_left_iff.1 (hmakes.forall₂_carries haddressed hsendable)
  rw [List.forall₂_nil_left_iff.1 hnil] at hsent
  exact ⟨m, hsent, hcarries⟩

/-- Three lines for two steps of one type with another between them. -/
def pagingSpecs : List String :=
  ["email:recipients=a@x, b@x;port=587", "console", "email: port =25"]

def pagingLines : List StepLine :=
  [⟨.email, [⟨.email, "recipients", "a@x, b@x"⟩, ⟨.email, "port", "587"⟩]⟩, ⟨.console, []⟩,
    ⟨.email, [⟨.email, "port", "25"⟩]⟩]

/-- The third step has its own port, the recipients of the first and a host that nobody gave. A line
with an option that its type does not have is refused. -/
theorem created_whole_with_kept_recipients :
    (∃ log m documents members,
      (∃ answer last, (createEscalation .standard "oncall" pagingSpecs .inMemory).Runs log
        (answer, last)) ∧
      sent log = [m] ∧ m.body = some (Json.array documents).compact ∧ documents.length = 3 ∧
      documents[2]? = some (.object members) ∧
      members.lookup "port" = some (.int 25) ∧
      members.lookup "recipients" = some (.array [.string "a@x", .string "b@x"]) ∧
      members.lookup "host" = some (.string "smtp.gmail.com")) ∧
    ∀ log answer last,
      (createEscalation .standard "oncall" ["console:port=1"] .inMemory).Runs log (answer, last) →
        sent log = [] := by
  refine ⟨?_, fun log answer last h => ?_⟩
  · have hread : pagingSpecs.mapM StepLine.read? = some pagingLines := by decide +kernel
    obtain ⟨documents, hlength, hdocuments, hruns⟩ :=
      (created_whole .standard "oncall" pagingSpecs .inMemory).2 pagingLines (by decide)
        (mapM_eq_some_iff.1 hread)
    obtain ⟨members, hmembers, hdocument⟩ := hdocuments 2 _ rfl
    obtain ⟨log, answer, last, h, hnothing⟩ : ∃ log answer last,
        (createEscalation .standard "oncall" pagingSpecs .inMemory).Runs log (answer, last) ∧
          readings log = [] :=
      ⟨_, _, _, Dialogue.runs_trace MemoryHost.answer _ (serverListing .drop),
        List.isEmpty_iff.1 (by decide +kernel)⟩
    have hsendable : SessionStore.inMemory.Sendable (readings log) := by
      rw [hnothing]
      exact ⟨(fun t ht => nomatch ht), (fun content hcontent => nomatch hcontent)⟩
    have haddressed : Addressed .standard
        [.post (Family.escalation.path "oncall") (some (.array documents))] := by
      obtain ⟨url, hurl⟩ := isOk_iff.1 (show (Http.Client.urlOf Config.standard.baseUrl
        (Family.escalation.path "oncall")).isOk = true by decide +kernel)
      intro request hrequest
      obtain rfl := List.mem_singleton.1 hrequest
      exact isOk_iff.2 ⟨_, Http.Client.message_eq_ok_iff.2 ⟨url, [], hurl, rfl, rfl⟩⟩
    obtain ⟨m, hsent, hcarries⟩ := (hruns log answer last h).2 haddressed hsendable
    refine ⟨log, m, documents, members, ⟨answer, last, h⟩, hsent, hcarries.body, hlength,
      hmembers, ?_, ?_, ?_⟩
    · exact hdocument.option "port" (by decide)
    · exact hdocument.option "recipients" (by decide)
    · exact hdocument.option "host" (by decide)
  · have hunreadable : ∃ spec ∈ ["console:port=1"], StepLine.read? spec = none :=
      ⟨_, List.mem_cons_self, by decide +kernel⟩
    exact ((created_whole .standard "oncall" ["console:port=1"] .inMemory).1 (.inr hunreadable)
      log answer last h).2.2

end Console

end AlertConsole
