import AlertConsole.Policy.Basic
import AlertConsole.Policy.Chip

/-!
# Policies under construction

Each section of a `PolicyDraft` collects chips. `build` leaves out a section without chips, and a
condition also when no escalation is set for it. Of several chips with one key the last counts.
-/

namespace AlertConsole

/-! ## Conditions -/

structure ConditionDraft where
  chips : List Chip
  occurrences : Nat
  /-- The escalation to notify, which is never blank. -/
  escalation : Option String

namespace ConditionDraft

def empty : ConditionDraft :=
  ⟨[], 1, none⟩

def addChip (c : ConditionDraft) (key value : String) : Except DraftError ConditionDraft :=
  (Chip.make key value).map fun chip => { c with chips := c.chips ++ [chip] }

/-- Takes out the chip at `index`, if there is one. -/
def removeChip (c : ConditionDraft) (index : Nat) : Option Chip × ConditionDraft :=
  (c.chips[index]?, { c with chips := c.chips.eraseIdx index })

def setOccurrences (c : ConditionDraft) (occurrences : Nat) : ConditionDraft :=
  { c with occurrences }

/-- Sets the escalation; a blank name is none. -/
def setEscalation (c : ConditionDraft) (name : Option String) : ConditionDraft :=
  { c with escalation := name.filter fun n => !Text.isBlankText n }

end ConditionDraft

/-- The fields that chips stand for. -/
def chipFields (chips : List Chip) : KeyMap Json :=
  .ofList (chips.map fun chip => (chip.key, .string chip.value))

def ConditionDraft.build? (c : ConditionDraft) : Option Condition :=
  match c.escalation with
  | none => none
  | some escalation =>
    if c.chips = [] then none else some ⟨c.occurrences, escalation, chipFields c.chips⟩

/-! ## Policies -/

structure PolicyDraft where
  name : String
  matchChips : List Chip
  notMatchChips : List Chip
  notMatchOccurrences : Nat
  crit : ConditionDraft
  warn : ConditionDraft

namespace PolicyDraft

def empty : PolicyDraft :=
  ⟨"", [], [], 1, .empty, .empty⟩

def setName (d : PolicyDraft) (name : String) : PolicyDraft :=
  { d with name }

def addMatch (d : PolicyDraft) (key value : String) : Except DraftError PolicyDraft :=
  (Chip.make key value).map fun chip => { d with matchChips := d.matchChips ++ [chip] }

def addNotMatch (d : PolicyDraft) (key value : String) : Except DraftError PolicyDraft :=
  (Chip.make key value).map fun chip => { d with notMatchChips := d.notMatchChips ++ [chip] }

def setNotMatchOccurrences (d : PolicyDraft) (occurrences : Nat) : PolicyDraft :=
  { d with notMatchOccurrences := occurrences }

/-- The fields to match, if any were given. -/
def matchSection? (d : PolicyDraft) : Option (KeyMap String) :=
  if d.matchChips = [] then none
  else some (.ofList (d.matchChips.map fun chip => (chip.key, chip.value)))

def notMatchSection? (d : PolicyDraft) : Option NotMatch :=
  if d.notMatchChips = [] then none
  else some ⟨d.notMatchOccurrences, chipFields d.notMatchChips⟩

def build (d : PolicyDraft) : Except DraftError Policy :=
  if Text.isBlankText d.name then .error .missingName
  else .ok
    { name := d.name
      matchFields := d.matchSection?
      notMatch := d.notMatchSection?
      crit := d.crit.build?
      warn := d.warn.build? }

/-- The name and the body to submit. -/
def payload (d : PolicyDraft) : Except DraftError (String × Json) :=
  d.build.map fun policy => (policy.name, policy.toJson.canonical)

end PolicyDraft

end AlertConsole
