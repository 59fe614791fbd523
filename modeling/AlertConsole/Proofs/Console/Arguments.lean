import AlertConsole.Console.Run
import AlertConsole.Proofs.Draft.Submit
import AlertConsole.Proofs.Outcome

/-!
# The arguments of a policy

The pairs on the command line become the chips of a draft, in their order, unless a key or a value is
blank (`policyDraft_eq`). What is saved and which calls that takes can be read off the arguments
(`PolicyArguments.calls`).
-/

namespace AlertConsole.Console

/-! ## Pairs -/

/-- Neither the key nor the value is blank. -/
def IsChip (pair : String × String) : Prop :=
  Text.isBlankText pair.1 = false ∧ Text.isBlankText pair.2 = false

instance (pair : String × String) : Decidable (IsChip pair) :=
  inferInstanceAs (Decidable (_ ∧ _))

/-- The chip that a pair stands for. -/
def chip (pair : String × String) : Chip :=
  ⟨pair.1, pair.2⟩

theorem make_eq (pair : String × String) :
    Chip.make pair.1 pair.2 = if IsChip pair then .ok (chip pair) else .error .emptyChip := by
  unfold Chip.make
  by_cases hpair : IsChip pair
  · rw [if_pos hpair, hpair.1, hpair.2]
    rfl
  · have hblank : (Text.isBlankText pair.1 || Text.isBlankText pair.2) = true := by
      unfold IsChip at hpair
      grind
    rw [if_neg hpair, if_pos hblank]

section Pairs

variable {δ : Type} {add : δ → String × String → Except DraftError δ} (draft : List Chip → δ)

/-- Adding pairs one by one adds all their chips, or fails. -/
theorem foldlM_addChip
    (hadd : ∀ chips pair, add (draft chips) pair =
      (Chip.make pair.1 pair.2).map fun chip => draft (chips ++ [chip]))
    (pairs : List (String × String)) (chips : List Chip) :
    pairs.foldlM add (draft chips) =
      if ∀ pair ∈ pairs, IsChip pair then .ok (draft (chips ++ pairs.map chip))
      else .error .emptyChip := by
  induction pairs generalizing chips with
  | nil => simp [pure, Except.pure]
  | cons pair rest ih =>
    rw [List.foldlM_cons, hadd, make_eq]
    by_cases hpair : IsChip pair
    · rw [if_pos hpair, except_map_ok, ok_bind, ih]
      simp only [List.forall_mem_cons, hpair, true_and, List.map_cons, List.append_assoc,
        List.singleton_append]
    · have hnot : ¬∀ p ∈ pair :: rest, IsChip p := fun h => hpair (h pair List.mem_cons_self)
      rw [if_neg hpair, except_map_error, error_bind, if_neg hnot]

end Pairs

/-! ## Drafts -/

/-- A condition with the chips and the target of its arguments. A blank target is none. -/
def ConditionArguments.draft (c : ConditionArguments) : ConditionDraft where
  chips := c.chips.map chip
  occurrences := c.occurrences
  escalation := c.escalation.filter fun name => !Text.isBlankText name

theorem foldlM_chips (pairs : List (String × String)) :
    pairs.foldlM (fun d (key, value) => d.addChip key value) ConditionDraft.empty =
      if ∀ pair ∈ pairs, IsChip pair then .ok ⟨pairs.map chip, 1, none⟩
      else .error .emptyChip :=
  foldlM_addChip (fun chips => (⟨chips, 1, none⟩ : ConditionDraft)) (fun _ _ => rfl) pairs []

theorem conditionDraft_eq (c : ConditionArguments) :
    conditionDraft c =
      if ∀ pair ∈ c.chips, IsChip pair then .ok c.draft else .error .emptyChip := by
  rw [conditionDraft, foldlM_chips, ite_bind]
  rfl

namespace PolicyArguments

/-- All pairs on the command line. -/
def pairs (a : PolicyArguments) : List (String × String) :=
  a.matchChips ++ a.notMatchChips ++ a.crit.chips ++ a.warn.chips

/-- Every pair can be a chip. -/
def Valid (a : PolicyArguments) : Prop :=
  ∀ pair ∈ a.pairs, IsChip pair

instance (a : PolicyArguments) : Decidable a.Valid :=
  inferInstanceAs (Decidable (∀ pair ∈ a.pairs, IsChip pair))

/-- The policy with the chips of the arguments, in their order. -/
def draft (a : PolicyArguments) : PolicyDraft where
  name := a.name
  matchChips := a.matchChips.map chip
  notMatchChips := a.notMatchChips.map chip
  notMatchOccurrences := a.notMatchOccurrences
  crit := a.crit.draft
  warn := a.warn.draft

end PolicyArguments

theorem foldlM_matchChips (name : String) (pairs : List (String × String)) :
    pairs.foldlM (fun d (key, value) => d.addMatch key value) (PolicyDraft.empty.setName name) =
      if ∀ pair ∈ pairs, IsChip pair then .ok ⟨name, pairs.map chip, [], 1, .empty, .empty⟩
      else .error .emptyChip :=
  foldlM_addChip (fun chips => (⟨name, chips, [], 1, .empty, .empty⟩ : PolicyDraft))
    (fun _ _ => rfl) pairs []

theorem foldlM_notMatchChips (name : String) (matched : List Chip)
    (pairs : List (String × String)) :
    pairs.foldlM (fun d (key, value) => d.addNotMatch key value)
        (⟨name, matched, [], 1, .empty, .empty⟩ : PolicyDraft) =
      if ∀ pair ∈ pairs, IsChip pair then .ok ⟨name, matched, pairs.map chip, 1, .empty, .empty⟩
      else .error .emptyChip :=
  foldlM_addChip (fun chips => (⟨name, matched, chips, 1, .empty, .empty⟩ : PolicyDraft))
    (fun _ _ => rfl) pairs []

theorem policyDraft_eq (a : PolicyArguments) :
    policyDraft a = if a.Valid then .ok a.draft else .error .emptyChip := by
  have hvalid : a.Valid ↔ (∀ pair ∈ a.matchChips, IsChip pair) ∧
      (∀ pair ∈ a.notMatchChips, IsChip pair) ∧ (∀ pair ∈ a.crit.chips, IsChip pair) ∧
      ∀ pair ∈ a.warn.chips, IsChip pair := by
    simp only [PolicyArguments.Valid, PolicyArguments.pairs, List.forall_mem_append, and_assoc]
  rw [policyDraft]
  simp only [foldlM_matchChips, foldlM_notMatchChips, conditionDraft_eq, ite_bind, hvalid,
    ite_and]
  rfl

/-! ## Calls -/

namespace PolicyArguments

/-- The escalations to notify, without blank ones. -/
def targets (a : PolicyArguments) : List String :=
  (a.crit.escalation.toList ++ a.warn.escalation.toList).filter fun name => !Text.isBlankText name

/-- The call that looks up the escalations on the server, if there are any to notify. -/
def lookups (a : PolicyArguments) : List Request :=
  if a.targets = [] then [] else [.get Family.escalation.listing]

/-- The call that saves the policy. -/
def saving (a : PolicyArguments) : Request :=
  Draft.request .policy a.name (Draft.policy a.draft).body

/-- All calls, in their order. -/
def calls (a : PolicyArguments) : List Request :=
  if a.Valid then a.lookups ++ (if Text.isBlankText a.name then [] else [a.saving]) else []

end PolicyArguments

theorem targets_draft (a : PolicyArguments) : targets a.draft = a.targets := by
  have hfilter : ∀ target : Option String,
      (target.filter fun name => !Text.isBlankText name).toList =
        target.toList.filter fun name => !Text.isBlankText name := by
    intro target
    rcases target with _ | name
    · rfl
    · rw [Option.filter_some]
      split <;> simp_all
  rw [PolicyArguments.targets, List.filter_append, ← hfilter, ← hfilter]
  rfl

end AlertConsole.Console
