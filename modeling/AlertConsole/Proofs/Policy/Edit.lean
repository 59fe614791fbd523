import AlertConsole.Policy.Draft
import AlertConsole.Proofs.Outcome

/-!
# Editing a policy

A policy is put together by a sequence of edits, each of which may fail and then leaves the draft
as it was. Counts are given as 32-bit numbers, so every count of an edited draft is one
(`PolicyDraft.Counted.ofEdits`).
-/

namespace AlertConsole

/-! ## Conditions -/

inductive ConditionEdit where
  | addChip (key value : String)
  | removeChip (index : Nat)
  | setOccurrences (occurrences : UInt32)
  | setEscalation (name : Option String)

namespace ConditionDraft

def perform (c : ConditionDraft) : ConditionEdit → Except DraftError ConditionDraft
  | .addChip key value => c.addChip key value
  | .removeChip index => .ok (c.removeChip index).2
  | .setOccurrences occurrences => .ok (c.setOccurrences occurrences.toNat)
  | .setEscalation name => .ok (c.setEscalation name)

end ConditionDraft

/-! ## Policies -/

inductive PolicyEdit where
  | setName (name : String)
  | addMatch (key value : String)
  | addNotMatch (key value : String)
  | setNotMatchOccurrences (occurrences : UInt32)
  | crit (edit : ConditionEdit)
  | warn (edit : ConditionEdit)

namespace PolicyDraft

def perform (d : PolicyDraft) : PolicyEdit → Except DraftError PolicyDraft
  | .setName name => .ok (d.setName name)
  | .addMatch key value => d.addMatch key value
  | .addNotMatch key value => d.addNotMatch key value
  | .setNotMatchOccurrences occurrences => .ok (d.setNotMatchOccurrences occurrences.toNat)
  | .crit edit => (d.crit.perform edit).map fun crit => { d with crit }
  | .warn edit => (d.warn.perform edit).map fun warn => { d with warn }

/-- The draft after an edit; one that fails changes nothing. -/
def edited (d : PolicyDraft) (edit : PolicyEdit) : PolicyDraft :=
  (d.perform edit).toOption.getD d

/-- The draft that a sequence of edits leads to. -/
def ofEdits (edits : List PolicyEdit) : PolicyDraft :=
  edits.foldl edited empty

end PolicyDraft

/-! ## Counts -/

theorem toNat_le_uint32Max (n : UInt32) : (n.toNat : Int) ≤ Number.uint32Max := by
  have hlt := n.toNat_lt
  unfold Number.uint32Max
  omega

namespace ConditionDraft

/-- The count is one of 32 bits. -/
def Counted (c : ConditionDraft) : Prop :=
  (c.occurrences : Int) ≤ Number.uint32Max

theorem Counted.perform {c r : ConditionDraft} (h : c.Counted) {edit : ConditionEdit}
    (hr : c.perform edit = .ok r) : r.Counted := by
  cases edit with
  | addChip key value =>
    obtain ⟨chip, -, rfl⟩ := map_eq_ok_iff.1 hr
    exact h
  | removeChip index =>
    cases hr
    exact h
  | setOccurrences occurrences =>
    cases hr
    exact toNat_le_uint32Max occurrences
  | setEscalation name =>
    cases hr
    exact h

theorem Counted.empty : empty.Counted := by
  unfold Counted
  decide

end ConditionDraft

namespace PolicyDraft

/-- Every count is one of 32 bits. -/
structure Counted (d : PolicyDraft) : Prop where
  notMatch : (d.notMatchOccurrences : Int) ≤ Number.uint32Max
  crit : d.crit.Counted
  warn : d.warn.Counted

theorem Counted.empty : empty.Counted :=
  ⟨by decide, ConditionDraft.Counted.empty, ConditionDraft.Counted.empty⟩

theorem Counted.perform {d r : PolicyDraft} (h : d.Counted) {edit : PolicyEdit}
    (hr : d.perform edit = .ok r) : r.Counted := by
  cases edit with
  | setName name =>
    cases hr
    exact ⟨h.notMatch, h.crit, h.warn⟩
  | addMatch key value =>
    obtain ⟨chip, -, rfl⟩ := map_eq_ok_iff.1 hr
    exact ⟨h.notMatch, h.crit, h.warn⟩
  | addNotMatch key value =>
    obtain ⟨chip, -, rfl⟩ := map_eq_ok_iff.1 hr
    exact ⟨h.notMatch, h.crit, h.warn⟩
  | setNotMatchOccurrences occurrences =>
    cases hr
    exact ⟨toNat_le_uint32Max occurrences, h.crit, h.warn⟩
  | crit edit =>
    obtain ⟨c, hcrit, rfl⟩ := map_eq_ok_iff.1 hr
    exact ⟨h.notMatch, h.crit.perform hcrit, h.warn⟩
  | warn edit =>
    obtain ⟨c, hwarn, rfl⟩ := map_eq_ok_iff.1 hr
    exact ⟨h.notMatch, h.crit, h.warn.perform hwarn⟩

theorem Counted.edited {d : PolicyDraft} (h : d.Counted) (edit : PolicyEdit) :
    (d.edited edit).Counted := by
  unfold PolicyDraft.edited
  rcases hr : d.perform edit with e | r
  · exact h
  · exact h.perform hr

theorem Counted.foldl_edited {d : PolicyDraft} (h : d.Counted) (edits : List PolicyEdit) :
    (edits.foldl PolicyDraft.edited d).Counted := by
  induction edits generalizing d with
  | nil => exact h
  | cons edit edits ih => exact ih (h.edited edit)

theorem Counted.ofEdits (edits : List PolicyEdit) : (ofEdits edits).Counted :=
  Counted.empty.foldl_edited edits

end PolicyDraft

end AlertConsole
