import AlertConsole.Api.Memory
import AlertConsole.Proofs.Catalog
import AlertConsole.Proofs.Escalation.Edit

/-!
# From steps to the listing and back

What is submitted of an escalation is a list of steps, each of them with its type and its options in
one object. However the steps came about, the listing gives back the same steps in the same order,
and the name among those a condition can have as its target (`EscalationDraft.listing_of_submitted`).
-/

namespace AlertConsole.EscalationDraft

theorem FollowSchemas.list_body {d : EscalationDraft} (h : d.FollowSchemas) :
    Decode.list Step.ofJson (Draft.escalation d).body = .ok d.steps := by
  apply Step.ofJson_toJson_list
  intro s hs
  exact (h s hs).ofJson_toJson

/-- What is submitted of an edited draft is read back, step by step and in order, from a listing that
has it under its name beside other escalations. The names to choose from are those listed, in
ascending order, and this one is among them. -/
theorem listing_of_submitted {σ : Type} (server : Api.Server σ) (consent : Bool)
    (t : Api.Transcript σ) (edits : List EscalationEdit)
    (hname : Text.isBlankText (ofEdits edits).name = false) :
    ∃ body,
      (Api.run server consent (Draft.escalation (ofEdits edits)).submit t).2.requests =
        t.requests ++ [.post (Family.escalation.path (ofEdits edits).name) (some body)] ∧
      ∀ (stored : KeyMap Json) (later : Api.Transcript σ),
        (∀ e ∈ stored.entries, e.1 ≠ (ofEdits edits).name →
          ∃ steps, Decode.list Step.ofJson e.2 = .ok steps) →
        (server.answer (.get Family.escalation.listing) later.server).1 =
          .ok (.object (stored.insert (ofEdits edits).name body).entries) →
        (∃ m, (Api.run server consent Catalog.escalations later).1 = .ok m ∧
          m.get? (ofEdits edits).name = some (ofEdits edits).steps) ∧
        ∃ names, (Api.run server consent Catalog.escalationNames later).1 = .ok names ∧
          names = (stored.insert (ofEdits edits).name body).keys ∧
          names.Pairwise (· < ·) ∧ (ofEdits edits).name ∈ names := by
  refine ⟨_, Draft.requests_run_submit server consent t (Draft.payload_of_name hname), ?_⟩
  intro stored later hothers hlisting
  have hbody := (FollowSchemas.ofEdits edits).list_body
  obtain ⟨m, hm, hsteps⟩ := (Decode.map_insert_iff hothers).2 hbody
  have hdecoded := Catalog.ofJson_object_eq_ok_iff.2 hm
  have hrun : (Api.run server consent Catalog.escalations later).1 = .ok m := by
    rw [Catalog.run_escalations, hlisting]
    exact hdecoded
  refine ⟨⟨m, hrun, hsteps⟩, m.keys, ?_, Catalog.keys_of_ofJson hdecoded, m.pairwise_keys, ?_⟩
  · rw [Catalog.run_escalationNames, hrun, except_map_ok]
  · rw [Catalog.keys_of_ofJson hdecoded]
    apply KeyMap.mem_keys_insert

/-- One step typed option by option, a line that fails, and a step given in one line. -/
def typedAndSpecified : List EscalationEdit :=
  [.setName "oncall", .selectType .email, .setOption "recipients" "a@x.com, b@x.com", .addStep,
    .applySpec "console:port=1", .applySpec "grafana_graphite_annotation:host=g;port=2003.5"]

/-- Two steps are read back beside another escalation, which has none. -/
theorem listing_of_two_steps :
    ∃ body, ∃ later : Api.Transcript MemoryServer,
      later.server.documents = KeyMap.empty.insert Family.escalation.listing
        (.object ((KeyMap.empty.insert "mail" (.array [])).insert "oncall" body).entries) ∧
      (ofEdits typedAndSpecified).steps.map (·.kind.name) =
        ["email", "grafana_graphite_annotation"] ∧
      (∃ m, (Api.run MemoryServer.server true Catalog.escalations later).1 = .ok m ∧
        m.get? "oncall" = some (ofEdits typedAndSpecified).steps) ∧
      (Api.run MemoryServer.server true Catalog.escalationNames later).1 =
        .ok ["mail", "oncall"] := by
  obtain ⟨body, -, hlisting⟩ := listing_of_submitted MemoryServer.server true
    (.start (.start .empty [])) typedAndSpecified (by decide)
  have hothers : ∀ e ∈ (KeyMap.empty.insert "mail" (.array [])).entries, e.1 ≠ "oncall" →
      ∃ steps, Decode.list Step.ofJson e.2 = .ok steps := by
    intro e he _
    obtain rfl := List.mem_singleton.1 he
    exact ⟨[], rfl⟩
  obtain ⟨hsteps, names, hnames, hkeys, -⟩ := hlisting _ (.start (.start (KeyMap.empty.insert
    Family.escalation.listing (.object ((KeyMap.empty.insert "mail" (.array [])).insert "oncall"
      body).entries)) [])) hothers rfl
  refine ⟨body, _, rfl, by decide, hsteps, ?_⟩
  rw [hnames, hkeys]
  rfl

end AlertConsole.EscalationDraft
