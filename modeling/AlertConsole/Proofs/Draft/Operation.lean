import AlertConsole.Escalation.Spec
import AlertConsole.Proofs.Draft.Submit
import AlertConsole.Proofs.Policy.Edit

/-!
# Operations on drafts

An edit is meant for a draft of one kind; any other draft refuses it (`edit_of_kind_ne`). Nothing
that is done to a draft changes its kind (`kind_run_performAll`).
-/

namespace AlertConsole

/-! ## Edits -/

inductive EscalationEdit where
  | setName (name : String)
  | selectType (kind : StepType)
  | setOption (field value : String)
  | addStep
  | removeStep (index : Nat)
  | applySpec (spec : String)

/-- An edit that fails keeps what was there. -/
def settle {α : Type} (a : α) : Except DraftError α → Except SpecError Unit × α
  | .error cause => (.error (.draft cause), a)
  | .ok b => (.ok (), b)

def EscalationDraft.perform (d : EscalationDraft) :
    EscalationEdit → Except SpecError Unit × EscalationDraft
  | .setName name => (.ok (), d.setName name)
  | .selectType kind => (.ok (), d.selectType kind)
  | .setOption field value => settle d (d.setOption field value)
  | .addStep => settle d (d.addStep.map (·.2))
  | .removeStep index => (.ok (), (d.removeStep index).2)
  | .applySpec spec => d.applySpec spec

inductive DraftEdit where
  | escalation (edit : EscalationEdit)
  | policy (edit : PolicyEdit)

/-- The kind of draft that an edit reaches for. -/
def DraftEdit.kind : DraftEdit → DraftKind
  | escalation _ => .escalation
  | policy _ => .policy

/-! ## Operations -/

inductive DraftOperation where
  | edit (edit : DraftEdit)
  | submit
  | cancel

namespace Draft

def edit (d : Draft) : DraftEdit → Except SpecError Unit × Draft
  | .escalation e =>
    match d.asEscalation with
    | .error cause => (.error (.draft cause), d)
    | .ok draft => ((draft.perform e).1, escalation (draft.perform e).2)
  | .policy e =>
    match d.asPolicy with
    | .error cause => (.error (.draft cause), d)
    | .ok draft => settle d ((draft.perform e).map policy)

def perform (d : Draft) : DraftOperation → Dialogue Api Draft
  | .edit e => pure (d.edit e).2
  | .submit => do pure (← d.submit).2
  | .cancel => pure d.cancel

/-- The draft that a sequence of operations leads to. -/
def performAll (d : Draft) : List DraftOperation → Dialogue Api Draft
  | [] => pure d
  | operation :: rest => do (← d.perform operation).performAll rest

/-! ## The kind -/

@[simp] theorem kind_empty (kind : DraftKind) : (empty kind).kind = kind := by
  cases kind <;> rfl

theorem edit_of_kind_ne {d : Draft} {e : DraftEdit} (h : e.kind ≠ d.kind) :
    d.edit e = (.error (.draft (.wrongKind e.kind)), d) := by
  cases e with
  | escalation e =>
    cases d with
    | escalation d => exact absurd rfl h
    | policy d => rfl
  | policy e =>
    cases d with
    | escalation d => rfl
    | policy d => exact absurd rfl h

theorem kind_edit (d : Draft) (e : DraftEdit) : (d.edit e).2.kind = d.kind := by
  by_cases h : e.kind = d.kind
  · cases e with
    | escalation e =>
      cases d with
      | escalation d => rfl
      | policy d => cases h
    | policy e =>
      cases d with
      | escalation d => cases h
      | policy d =>
        rcases hperform : d.perform e with cause | r
        · simp only [edit, asPolicy, hperform, except_map_error, settle]
        · simp only [edit, asPolicy, hperform, except_map_ok, settle, kind]
  · rw [edit_of_kind_ne h]

variable {σ : Type} (server : Api.Server σ) (consent : Bool) (t : Api.Transcript σ)

theorem kind_run_submit (d : Draft) : (Api.run server consent d.submit t).1.2.kind = d.kind := by
  rcases hpayload : d.payload with cause | ⟨name, body⟩
  · rw [run_submit_of_invalid server consent t hpayload]
  rcases hpost : (server.answer (request d.kind name body) t.server).1 with cause | ⟨⟩
  · rw [run_submit_of_refused server consent t hpayload hpost]
  · rw [run_submit_of_accepted server consent t hpayload hpost, kind_empty]

theorem kind_run_perform (d : Draft) (operation : DraftOperation) :
    (Api.run server consent (d.perform operation) t).1.kind = d.kind := by
  cases operation with
  | edit e => exact kind_edit d e
  | submit =>
    rw [perform, Api.run_bind]
    exact kind_run_submit server consent t d
  | cancel => exact kind_empty d.kind

theorem kind_run_performAll (d : Draft) (operations : List DraftOperation) :
    (Api.run server consent (d.performAll operations) t).1.kind = d.kind := by
  induction operations generalizing d t with
  | nil => rfl
  | cons operation rest ih => rw [performAll, Api.run_bind, ih, kind_run_perform]

end Draft

end AlertConsole
