import AlertConsole.Proofs.Draft.Submit
import AlertConsole.Proofs.KeyMap
import AlertConsole.Proofs.Policy.Edit
import AlertConsole.Proofs.Text.Blank

/-!
# The sections of a policy

A history of edits calls for the sections of a policy by the chips that are held at its end and by
what was set last. The draft is made of nothing else (`PolicyDraft.ofEdits_eq`), and the policy
built from it has exactly the sections that are called for, without a blank in them
(`PolicyDraft.built_as_called_for`).
-/

namespace AlertConsole

open Text (trim)

/-! ## Chips -/

namespace Chip

/-- The chip of a key and a value, neither of which may be blank. -/
def of? (key value : String) : Option Chip :=
  if trim key = "" ∨ trim value = "" then none else some ⟨key, value⟩

/-- Neither the key nor the value is blank. -/
def IsFilled (chip : Chip) : Prop :=
  trim chip.key ≠ "" ∧ trim chip.value ≠ ""

theorem isFilled_of_mem_of? {key value : String} {chip : Chip}
    (h : chip ∈ (of? key value).toList) : chip.IsFilled := by
  by_cases hblank : trim key = "" ∨ trim value = ""
  · rw [of?, if_pos hblank] at h
    cases h
  · rw [of?, if_neg hblank, Option.toList_some, List.mem_singleton] at h
    rw [h]
    exact not_or.1 hblank

theorem make_eq_of? (key value : String) :
    make key value = (of? key value).elim (.error .emptyChip) .ok := by
  have hblank : (Text.isBlankText key || Text.isBlankText value) = true ↔
      trim key = "" ∨ trim value = "" := by
    rw [Bool.or_eq_true, Text.isBlankText_iff_trim, Text.isBlankText_iff_trim]
  rw [make, of?]
  by_cases h : trim key = "" ∨ trim value = ""
  · rw [if_pos h, if_pos (hblank.2 h), Option.elim_none]
  · rw [if_neg h, if_neg (mt hblank.1 h), Option.elim_some]

section Adding

variable {δ : Type} (key value : String)

/-- A chip is added to a draft, or the draft is left as it was. -/
theorem toOption_map_make (draft : List Chip → δ) (chips : List Chip) :
    ((make key value).map fun chip => draft (chips ++ [chip])).toOption.getD (draft chips) =
      draft (chips ++ (of? key value).toList) := by
  rw [make_eq_of?]
  cases of? key value with
  | none => simp [Except.toOption]
  | some chip => rfl

theorem make_eq_error_iff {cause : DraftError} :
    make key value = .error cause ↔ cause = .emptyChip ∧ (trim key = "" ∨ trim value = "") := by
  rw [make_eq_of?, of?]
  by_cases h : trim key = "" ∨ trim value = ""
  · rw [if_pos h, Option.elim_none, Except.error.injEq, eq_comm]
    exact (and_iff_left h).symm
  · rw [if_neg h, Option.elim_some]
    exact iff_of_false (fun hok => nomatch hok) fun hblank => h hblank.2

end Adding

end Chip

/-- The map has the keys of these chips, each with the value of the last chip that has it. -/
def SendsChips {α : Type} (encode : String → α) (fields : KeyMap α) (chips : List Chip) : Prop :=
  ∀ key, fields.get? key =
    ((chips.filter fun chip => chip.key = key).getLast?.map Chip.value).map encode

section SendsChips

variable {α : Type} {encode : String → α}

theorem lookup_reverse_chips (encode : String → α) (chips : List Chip) (key : String) :
    (chips.map fun chip => (chip.key, encode chip.value)).reverse.lookup key =
      ((chips.filter fun chip => chip.key = key).getLast?.map Chip.value).map encode := by
  induction chips using List.reverseRecOn with
  | nil => rfl
  | append_singleton chips chip ih =>
    rw [List.map_append, List.map_singleton, List.reverse_concat, lookup_cons_eq_ite, ih]
    by_cases hkey : chip.key = key
    · simp [hkey]
    · simp [hkey, Ne.symm hkey]

theorem sendsChips_ofList (encode : String → α) (chips : List Chip) :
    SendsChips encode (.ofList (chips.map fun chip => (chip.key, encode chip.value))) chips :=
  fun key => (lookup_sortEntries key _).trans (lookup_reverse_chips encode chips key)

theorem SendsChips.exists_chip {fields : KeyMap α} {chips : List Chip}
    (h : SendsChips encode fields chips) {e : String × α} (he : e ∈ fields.entries) :
    ∃ chip ∈ chips, e = (chip.key, encode chip.value) := by
  have hget := (h e.1).symm.trans (lookup_of_mem fields.ascending he)
  simp only [Option.map_map, Option.map_eq_some_iff] at hget
  obtain ⟨chip, hlast, hvalue⟩ := hget
  obtain ⟨hmem, hkey⟩ := List.mem_filter.1 (List.mem_of_getLast? hlast)
  exact ⟨chip, hmem, Prod.ext (of_decide_eq_true hkey).symm hvalue.symm⟩

end SendsChips

/-! ## Histories -/

/-- What the edits of one sort gave last. -/
def lastGiven {ε α : Type} (given? : ε → Option α) (default : α) (edits : List ε) : α :=
  (edits.filterMap given?).getLastD default

theorem lastGiven_concat {ε α : Type} (given? : ε → Option α) (default : α) (edits : List ε)
    (edit : ε) :
    lastGiven given? default (edits ++ [edit]) =
      (given? edit).getD (lastGiven given? default edits) := by
  cases h : given? edit <;> simp [lastGiven, h]

theorem filterMap_concat {ε α : Type} (given? : ε → Option α) (edits : List ε) (edit : ε) :
    (edits ++ [edit]).filterMap given? = edits.filterMap given? ++ (given? edit).toList := by
  cases h : given? edit <;> simp [h]

namespace ConditionEdit

/-- The key and the value of the chip that an edit is to add. -/
def pair? : ConditionEdit → Option (String × String)
  | addChip key value => some (key, value)
  | _ => none

/-- The chips of a section after an edit. -/
def chipsAfter (chips : List Chip) : ConditionEdit → List Chip
  | addChip key value => chips ++ (Chip.of? key value).toList
  | removeChip index => chips.eraseIdx index
  | setOccurrences _ => chips
  | setEscalation _ => chips

def count? : ConditionEdit → Option Nat
  | setOccurrences occurrences => some occurrences.toNat
  | _ => none

/-- The escalation that an edit sets; an edit may also set none. -/
def target? : ConditionEdit → Option (Option String)
  | setEscalation name => some name
  | _ => none

/-- The chips that a section holds. -/
def held (edits : List ConditionEdit) : List Chip :=
  edits.foldl chipsAfter []

/-- The count that was set last. -/
def lastCount (edits : List ConditionEdit) : Nat :=
  lastGiven count? 1 edits

/-- The escalation that was set last, which may be blank. -/
def lastTarget? (edits : List ConditionEdit) : Option String :=
  lastGiven target? none edits

/-- A chip is held, and the last escalation that was set is a name. -/
def CallFor (edits : List ConditionEdit) : Prop :=
  held edits ≠ [] ∧ ∃ name, lastTarget? edits = some name ∧ trim name ≠ ""

theorem held_concat (edits : List ConditionEdit) (edit : ConditionEdit) :
    held (edits ++ [edit]) = edit.chipsAfter (held edits) := by
  rw [held, List.foldl_concat, held]

theorem isFilled_of_mem_held {edits : List ConditionEdit} {chip : Chip} (h : chip ∈ held edits) :
    chip.IsFilled := by
  induction edits using List.reverseRecOn with
  | nil => cases h
  | append_singleton edits edit ih =>
    rw [held_concat] at h
    cases edit with
    | addChip key value => exact (List.mem_append.1 h).elim ih Chip.isFilled_of_mem_of?
    | removeChip index => exact ih (List.mem_of_mem_eraseIdx h)
    | setOccurrences occurrences => exact ih h
    | setEscalation name => exact ih h

end ConditionEdit

namespace PolicyEdit

def name? : PolicyEdit → Option String
  | setName name => some name
  | _ => none

/-- The chip that an edit adds to those to match. -/
def matched : PolicyEdit → List Chip
  | addMatch key value => (Chip.of? key value).toList
  | _ => []

/-- The chip that an edit adds to those not to match. -/
def notMatched : PolicyEdit → List Chip
  | addNotMatch key value => (Chip.of? key value).toList
  | _ => []

def notMatchCount? : PolicyEdit → Option Nat
  | setNotMatchOccurrences occurrences => some occurrences.toNat
  | _ => none

def crit? : PolicyEdit → Option ConditionEdit
  | crit edit => some edit
  | _ => none

def warn? : PolicyEdit → Option ConditionEdit
  | warn edit => some edit
  | _ => none

/-- The key and the value of the chip that an edit is to add. -/
def pair? : PolicyEdit → Option (String × String)
  | addMatch key value => some (key, value)
  | addNotMatch key value => some (key, value)
  | crit edit => edit.pair?
  | warn edit => edit.pair?
  | _ => none

/-- The edit is to add a chip with a blank key or value. -/
def IsRejected (edit : PolicyEdit) : Prop :=
  ∃ key value, edit.pair? = some (key, value) ∧ (trim key = "" ∨ trim value = "")

variable (edits : List PolicyEdit)

def lastName : String := lastGiven name? "" edits

def heldMatches : List Chip := edits.flatMap matched

def heldNotMatches : List Chip := edits.flatMap notMatched

def lastNotMatchCount : Nat := lastGiven notMatchCount? 1 edits

/-- The edits of the critical condition. -/
def critEdits : List ConditionEdit := edits.filterMap crit?

/-- The edits of the warning. -/
def warnEdits : List ConditionEdit := edits.filterMap warn?

variable {edits} {chip : Chip}

theorem isFilled_of_mem_heldMatches (h : chip ∈ heldMatches edits) : chip.IsFilled := by
  obtain ⟨edit, -, hchip⟩ := List.mem_flatMap.1 h
  cases edit with
  | addMatch key value => exact Chip.isFilled_of_mem_of? hchip
  | _ => cases hchip

theorem isFilled_of_mem_heldNotMatches (h : chip ∈ heldNotMatches edits) : chip.IsFilled := by
  obtain ⟨edit, -, hchip⟩ := List.mem_flatMap.1 h
  cases edit with
  | addNotMatch key value => exact Chip.isFilled_of_mem_of? hchip
  | _ => cases hchip

end PolicyEdit

/-! ## Drafts of a history -/

open ConditionEdit (held lastCount lastTarget? CallFor)

namespace ConditionDraft

/-- The draft after an edit; one that fails changes nothing. -/
def edited (c : ConditionDraft) (edit : ConditionEdit) : ConditionDraft :=
  (c.perform edit).toOption.getD c

/-- What a history of edits leaves of a section. -/
def ofHistory (edits : List ConditionEdit) : ConditionDraft where
  chips := held edits
  occurrences := lastCount edits
  escalation := (lastTarget? edits).filter fun name => !Text.isBlankText name

theorem ofHistory_concat (edits : List ConditionEdit) (edit : ConditionEdit) :
    ofHistory (edits ++ [edit]) = (ofHistory edits).edited edit := by
  rw [ofHistory, lastCount, lastTarget?, ConditionEdit.held_concat, lastGiven_concat,
    lastGiven_concat]
  cases edit with
  | addChip key value =>
    exact (Chip.toOption_map_make key value
      (fun chips => { ofHistory edits with chips }) (held edits)).symm
  | removeChip index => rfl
  | setOccurrences occurrences => rfl
  | setEscalation name => rfl

end ConditionDraft

namespace PolicyDraft

open PolicyEdit

/-- What a history of edits leaves. -/
def ofHistory (edits : List PolicyEdit) : PolicyDraft where
  name := lastName edits
  matchChips := heldMatches edits
  notMatchChips := heldNotMatches edits
  notMatchOccurrences := lastNotMatchCount edits
  crit := .ofHistory (critEdits edits)
  warn := .ofHistory (warnEdits edits)

theorem edited_crit (d : PolicyDraft) (edit : ConditionEdit) :
    d.edited (.crit edit) = { d with crit := d.crit.edited edit } := by
  rw [edited, perform, ConditionDraft.edited]
  cases d.crit.perform edit <;> rfl

theorem edited_warn (d : PolicyDraft) (edit : ConditionEdit) :
    d.edited (.warn edit) = { d with warn := d.warn.edited edit } := by
  rw [edited, perform, ConditionDraft.edited]
  cases d.warn.perform edit <;> rfl

theorem ofHistory_concat (edits : List PolicyEdit) (edit : PolicyEdit) :
    ofHistory (edits ++ [edit]) = (ofHistory edits).edited edit := by
  have hconcat : ofHistory (edits ++ [edit]) =
      { name := edit.name?.getD (lastName edits)
        matchChips := heldMatches edits ++ edit.matched
        notMatchChips := heldNotMatches edits ++ edit.notMatched
        notMatchOccurrences := edit.notMatchCount?.getD (lastNotMatchCount edits)
        crit := .ofHistory (critEdits edits ++ edit.crit?.toList)
        warn := .ofHistory (warnEdits edits ++ edit.warn?.toList) } := by
    simp only [ofHistory, lastName, lastNotMatchCount, lastGiven_concat, heldMatches,
      heldNotMatches, List.flatMap_append, List.flatMap_singleton, critEdits, warnEdits,
      filterMap_concat]
  rw [hconcat]
  cases edit <;>
    simp only [PolicyEdit.matched, PolicyEdit.notMatched, PolicyEdit.crit?, PolicyEdit.warn?,
      Option.toList_none, Option.toList_some, List.append_nil, ConditionDraft.ofHistory_concat,
      edited_crit, edited_warn]
  case addMatch key value =>
    exact (Chip.toOption_map_make key value
      (fun chips => { ofHistory edits with matchChips := chips }) (heldMatches edits)).symm
  case addNotMatch key value =>
    exact (Chip.toOption_map_make key value
      (fun chips => { ofHistory edits with notMatchChips := chips }) (heldNotMatches edits)).symm
  all_goals rfl

/-- The draft of a history is made of the chips that are held and of what was set last. -/
theorem ofEdits_eq (edits : List PolicyEdit) : ofEdits edits = ofHistory edits := by
  induction edits using List.reverseRecOn with
  | nil => rfl
  | append_singleton edits edit ih =>
    rw [ofHistory_concat, ← ih, ofEdits, List.foldl_concat, ofEdits]

end PolicyDraft

/-! ## Sections -/

/-- No key and no value is blank. -/
def FilledFields (fields : KeyMap Json) : Prop :=
  ∀ e ∈ fields.entries, trim e.1 ≠ "" ∧ ∃ value, e.2 = .string value ∧ trim value ≠ ""

theorem SendsChips.filledFields {fields : KeyMap Json} {chips : List Chip}
    (h : SendsChips .string fields chips) (hchips : ∀ chip ∈ chips, chip.IsFilled) :
    FilledFields fields := by
  intro e he
  obtain ⟨chip, hmem, rfl⟩ := h.exists_chip he
  exact ⟨(hchips chip hmem).1, chip.value, rfl, (hchips chip hmem).2⟩

/-- A condition is there if the edits of its section call for one, and it has what they gave. -/
structure Condition.Answers (edits : List ConditionEdit) (built : Option Condition) : Prop where
  isSome_iff : built.isSome = true ↔ CallFor edits
  occurrences : ∀ c, built = some c → c.occurrences = lastCount edits
  escalation : ∀ c, built = some c → lastTarget? edits = some c.escalation
  fields : ∀ c, built = some c → SendsChips .string c.fields (held edits)

namespace Policy

open PolicyEdit

/-- The policy has the sections that the edits call for, with what they gave. -/
structure Answers (edits : List PolicyEdit) (p : Policy) : Prop where
  name : p.name = lastName edits
  match_isSome_iff : p.matchFields.isSome = true ↔ heldMatches edits ≠ []
  matchFields : ∀ m, p.matchFields = some m → SendsChips id m (heldMatches edits)
  notMatch_isSome_iff : p.notMatch.isSome = true ↔ heldNotMatches edits ≠ []
  notMatch : ∀ n, p.notMatch = some n →
    n.occurrences = lastNotMatchCount edits ∧ SendsChips .string n.fields (heldNotMatches edits)
  crit : Condition.Answers (critEdits edits) p.crit
  warn : Condition.Answers (warnEdits edits) p.warn

/-- No key, value or escalation of a section is blank. -/
structure IsFilled (p : Policy) : Prop where
  matchFields : ∀ m, p.matchFields = some m → ∀ e ∈ m.entries, trim e.1 ≠ "" ∧ trim e.2 ≠ ""
  notMatch : ∀ n, p.notMatch = some n → FilledFields n.fields
  condition : ∀ c, p.crit = some c ∨ p.warn = some c →
    trim c.escalation ≠ "" ∧ FilledFields c.fields

end Policy

theorem Condition.Answers.filled {edits : List ConditionEdit} {built : Option Condition}
    (h : Answers edits built) {c : Condition} (hc : built = some c) :
    trim c.escalation ≠ "" ∧ FilledFields c.fields := by
  obtain ⟨-, name, hname, hfilled⟩ := h.isSome_iff.1 (hc ▸ rfl)
  obtain rfl : c.escalation = name := Option.some.inj ((h.escalation c hc).symm.trans hname)
  exact ⟨hfilled, (h.fields c hc).filledFields fun _ => ConditionEdit.isFilled_of_mem_held⟩

theorem Policy.Answers.isFilled {edits : List PolicyEdit} {p : Policy} (h : p.Answers edits) :
    p.IsFilled where
  matchFields := by
    intro m hm e he
    obtain ⟨chip, hchip, rfl⟩ := (h.matchFields m hm).exists_chip he
    exact PolicyEdit.isFilled_of_mem_heldMatches hchip
  notMatch := by
    intro n hn
    exact (h.notMatch n hn).2.filledFields fun _ => PolicyEdit.isFilled_of_mem_heldNotMatches
  condition := by
    intro c hc
    exact hc.elim h.crit.filled h.warn.filled

theorem Policy.Answers.isInert_iff {edits : List PolicyEdit} {p : Policy} (h : p.Answers edits) :
    p.isInert = true ↔
      PolicyEdit.heldMatches edits = [] ∧ PolicyEdit.heldNotMatches edits = [] ∧
        ¬CallFor (PolicyEdit.critEdits edits) ∧ ¬CallFor (PolicyEdit.warnEdits edits) := by
  have hinert : p.isInert = true ↔ ¬p.matchFields.isSome = true ∧ ¬p.notMatch.isSome = true ∧
      ¬p.crit.isSome = true ∧ ¬p.warn.isSome = true := by
    simp [isInert, and_assoc]
  rw [hinert, h.match_isSome_iff, h.notMatch_isSome_iff, h.crit.isSome_iff, h.warn.isSome_iff,
    not_ne_iff, not_ne_iff]

/-! ## Building -/

theorem ConditionDraft.build?_eq_some_iff {c : ConditionDraft} {s : Condition} :
    c.build? = some s ↔ ∃ escalation, c.escalation = some escalation ∧ c.chips ≠ [] ∧
      s = ⟨c.occurrences, escalation, chipFields c.chips⟩ := by
  rw [build?]
  cases c.escalation with
  | none => simp
  | some escalation =>
    by_cases hchips : c.chips = []
    · simp [hchips]
    · simp [hchips, eq_comm]

theorem ConditionDraft.answers_build? (edits : List ConditionEdit) :
    Condition.Answers edits (ofHistory edits).build? := by
  have hbuild : ∀ c, (ofHistory edits).build? = some c ↔
      ∃ name, (lastTarget? edits = some name ∧ trim name ≠ "") ∧ held edits ≠ [] ∧
        c = ⟨lastCount edits, name, chipFields (held edits)⟩ := by
    intro c
    have htarget : ∀ name, (ofHistory edits).escalation = some name ↔
        lastTarget? edits = some name ∧ trim name ≠ "" := by
      intro name
      rw [ofHistory, Option.filter_eq_some_iff, Bool.not_eq_true', ← Bool.not_eq_true,
        Text.isBlankText_iff_trim]
    simp only [build?_eq_some_iff, htarget]
    rfl
  refine ⟨?_, fun c hc => ?_, fun c hc => ?_, fun c hc => ?_⟩
  · simp only [Option.isSome_iff_exists, hbuild, CallFor]
    constructor
    · rintro ⟨c, name, hname, hheld, -⟩
      exact ⟨hheld, name, hname⟩
    · rintro ⟨hheld, name, hname⟩
      exact ⟨_, name, hname, hheld, rfl⟩
  all_goals obtain ⟨name, hname, -, rfl⟩ := (hbuild c).1 hc
  · rfl
  · exact hname.1
  · exact sendsChips_ofList Json.string (held edits)

namespace PolicyDraft

open PolicyEdit

theorem answers_policy (edits : List PolicyEdit) : (ofEdits edits).policy.Answers edits := by
  rw [ofEdits_eq]
  have hmatch : (ofHistory edits).policy.matchFields =
      if heldMatches edits = [] then none
      else some (.ofList ((heldMatches edits).map fun chip => (chip.key, chip.value))) := rfl
  have hnot : (ofHistory edits).policy.notMatch =
      if heldNotMatches edits = [] then none
      else some ⟨lastNotMatchCount edits, chipFields (heldNotMatches edits)⟩ := rfl
  refine ⟨rfl, ?_, fun m hm => ?_, ?_, fun n hn => ?_, ConditionDraft.answers_build? _,
    ConditionDraft.answers_build? _⟩
  · rw [hmatch]
    split <;> simp [*]
  · rw [hmatch] at hm
    split at hm
    · cases hm
    · cases hm
      exact sendsChips_ofList id (heldMatches edits)
  · rw [hnot]
    split <;> simp [*]
  · rw [hnot] at hn
    split at hn
    · cases hn
    · cases hn
      exact ⟨rfl, sendsChips_ofList Json.string (heldNotMatches edits)⟩

theorem build_eq_error_iff {d : PolicyDraft} :
    d.build = .error .missingName ↔ trim d.name = "" := by
  rw [build, ← Text.isBlankText_iff_trim]
  split <;> simp [*]

/-- A chip with a blank key or value is rejected, and no other edit is. -/
theorem perform_eq_error_iff {d : PolicyDraft} {edit : PolicyEdit} {cause : DraftError} :
    d.perform edit = .error cause ↔ cause = .emptyChip ∧ edit.IsRejected := by
  have hchip : ∀ {δ : Type} (f : Chip → δ) (key value : String), edit.pair? = some (key, value) →
      ((Chip.make key value).map f = .error cause ↔ cause = .emptyChip ∧ edit.IsRejected) := by
    intro δ f key value hpair
    simp [map_eq_error_iff, Chip.make_eq_error_iff, IsRejected, hpair]
  have hnever : edit.pair? = none → ¬edit.IsRejected := by
    rintro hnone ⟨key, value, hpair, -⟩
    rw [hnone] at hpair
    cases hpair
  have hcondition : ∀ (c : ConditionDraft) (e : ConditionEdit), edit.pair? = e.pair? →
      (c.perform e = .error cause ↔ cause = .emptyChip ∧ edit.IsRejected) := by
    intro c e he
    cases e with
    | addChip key value => exact hchip _ key value he
    | _ => exact iff_of_false (fun hok => nomatch hok) fun h => hnever he h.2
  cases edit with
  | addMatch key value => exact hchip _ key value rfl
  | addNotMatch key value => exact hchip _ key value rfl
  | crit e => exact map_eq_error_iff.trans (hcondition d.crit e rfl)
  | warn e => exact map_eq_error_iff.trans (hcondition d.warn e rfl)
  | _ => exact iff_of_false (fun hok => nomatch hok) fun h => hnever rfl h.2

theorem ofEdits_of_rejected (edits : List PolicyEdit) {edit : PolicyEdit} (h : edit.IsRejected) :
    ofEdits (edits ++ [edit]) = ofEdits edits := by
  have hperform := (perform_eq_error_iff (d := ofEdits edits)).2 ⟨rfl, h⟩
  rw [ofEdits, List.foldl_concat, ← ofEdits, edited, hperform]
  rfl

/-- The policy of a history of edits has the sections that the edits call for, unless it has no
name. A chip with a blank key or value is rejected, and nothing else is. -/
theorem built_as_called_for (edits : List PolicyEdit) :
    ((ofEdits edits).build = .error .missingName ↔ trim (lastName edits) = "") ∧
      (trim (lastName edits) ≠ "" → ∃ p, (ofEdits edits).build = .ok p ∧ p.Answers edits ∧
        p.IsFilled ∧
        (p.isInert = true ↔ heldMatches edits = [] ∧ heldNotMatches edits = [] ∧
          ¬CallFor (critEdits edits) ∧ ¬CallFor (warnEdits edits))) ∧
      ∀ edit,
        (∀ cause, (ofEdits edits).perform edit = .error cause ↔
          cause = .emptyChip ∧ edit.IsRejected) ∧
        (edit.IsRejected → ofEdits (edits ++ [edit]) = ofEdits edits) := by
  have hanswers := answers_policy edits
  have hname : (ofEdits edits).name = lastName edits := hanswers.name
  refine ⟨?_, fun hfilled => ?_, fun edit => ⟨fun cause => perform_eq_error_iff, ?_⟩⟩
  · rw [build_eq_error_iff, hname]
  · have hblank : Text.isBlankText (ofEdits edits).name = false := by
      rwa [← Bool.not_eq_true, Text.isBlankText_iff_trim, hname]
    exact ⟨_, build_of_name hblank, hanswers, hanswers.isFilled, hanswers.isInert_iff⟩
  · exact ofEdits_of_rejected edits

end PolicyDraft

end AlertConsole
