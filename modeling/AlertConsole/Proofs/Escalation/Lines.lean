import AlertConsole.Console.Run
import AlertConsole.Proofs.Escalation.Edit

/-!
# Escalations given line by line

A line says a type of step and assigns texts to options of that type. What is assigned stays in force
for later lines of the same type, whatever lines of other types come in between, and an option that
nothing was assigned to has its default (`EscalationDraft.steps_ofLines`). The lines are applied
exactly if each of them can be read on its own (`EscalationDraft.applySpecs_eq`).
-/

namespace AlertConsole

/-! ## What a line says -/

/-- A text for an option of a type. -/
structure Assignment where
  kind : StepType
  field : String
  value : String
  deriving DecidableEq

/-- What one segment of a line assigns. -/
def Spec.assignment? (kind : StepType) (segment : List Char) : Option Assignment := do
  let (field, value) ← Text.splitOnce '=' segment
  let option ← kind.option? (String.ofList (Text.trimChars field))
  pure ⟨kind, option.name, String.ofList value⟩

structure StepLine where
  kind : StepType
  assignments : List Assignment
  deriving DecidableEq

namespace StepLine

/-- Reads a line without regard to those before it. -/
def read? (spec : String) : Option StepLine := do
  let kind ← StepType.ofName? (Spec.typeName spec)
  let assignments ← (Spec.segments spec).mapM (Spec.assignment? kind)
  pure ⟨kind, assignments⟩

end StepLine

/-- The text that was assigned to an option last. -/
def lastAssigned? (assignments : List Assignment) (kind : StepType) (field : String) :
    Option String :=
  (assignments.filter fun a => a.kind = kind ∧ a.field = field).getLast?.map Assignment.value

/-- The text of an option after these lines. -/
def textAfter (lines : List StepLine) (kind : StepType) (option : OptionField) : String :=
  (lastAssigned? (lines.flatMap StepLine.assignments) kind option.name).getD option.default

theorem lastAssigned?_concat (assignments : List Assignment) (a : Assignment) (kind : StepType)
    (field : String) :
    lastAssigned? (assignments ++ [a]) kind field =
      if a.kind = kind ∧ a.field = field then some a.value
      else lastAssigned? assignments kind field := by
  unfold lastAssigned?
  by_cases h : a.kind = kind ∧ a.field = field
  · simp [h]
  · simp [h]

theorem lastAssigned?_eq_none_iff {assignments : List Assignment} {kind : StepType}
    {field : String} :
    lastAssigned? assignments kind field = none ↔
      ∀ a ∈ assignments, a.kind = kind → a.field ≠ field := by
  simp [lastAssigned?]

/-! ## Schemas -/

theorem lookup_reverse_of_pairwise {α : Type} {entries : List (String × α)}
    (h : entries.Pairwise fun a b => a.1 ≠ b.1) (k : String) :
    entries.reverse.lookup k = entries.lookup k := by
  induction entries with
  | nil => rfl
  | cons e rest ih =>
    obtain ⟨key, value⟩ := e
    obtain ⟨hkey, hrest⟩ := List.pairwise_cons.1 h
    rw [List.reverse_cons, List.lookup_append, ih hrest, lookup_cons_eq_ite, lookup_cons_eq_ite]
    by_cases hk : k = key
    · have hnone : rest.lookup key = none := by
        rw [List.lookup_eq_none_iff]
        intro e he
        simpa using hkey e he
      simp [hk, hnone]
    · simp [hk]

theorem lookup_map_name {α : Type} (f : OptionField → α) (options : List OptionField)
    (field : String) :
    (options.map fun option => (option.name, f option)).lookup field =
      (options.find? (·.name == field)).map f := by
  induction options with
  | nil => rfl
  | cons option rest ih =>
    rw [List.map_cons, lookup_cons_eq_ite, ih]
    by_cases h : field = option.name
    · simp [h]
    · simp [h, Ne.symm h]

theorem StepType.name_of_option? {kind : StepType} {field : String} {option : OptionField}
    (h : kind.option? field = some option) : option.name = field := by
  simpa using List.find?_some h

theorem StepType.exists_option?_iff {kind : StepType} {field : String} :
    (∃ option, kind.option? field = some option) ↔
      ∃ option ∈ kind.options, option.name = field := by
  rw [← Option.isSome_iff_exists, option?, List.find?_isSome]
  simp

theorem StepType.option?_name {kind : StepType} {option : OptionField}
    (h : option ∈ kind.options) : kind.option? option.name = some option := by
  have hall : ∀ option ∈ kind.options, kind.option? option.name = some option := by
    cases kind <;> simp [options, option?]
  exact hall option h

theorem StepType.pairwise_names (kind : StepType) :
    kind.options.Pairwise fun a b => a.name ≠ b.name := by
  cases kind <;> decide

/-- The options of a type have their values, and there are no others. -/
theorem StepType.get?_valued (kind : StepType) (text : OptionField → String) (field : String) :
    (kind.valued text).get? field =
      (kind.option? field).map fun option => option.transform.apply (text option) := by
  have hpairwise : (kind.options.map fun option =>
      (option.name, option.transform.apply (text option))).Pairwise fun a b => a.1 ≠ b.1 := by
    rw [List.pairwise_map]
    exact kind.pairwise_names
  rw [valued, KeyMap.get?, KeyMap.ofList, lookup_sortEntries, lookup_reverse_of_pairwise hpairwise,
    lookup_map_name, option?]

theorem StepType.get?_valued_name {kind : StepType} {option : OptionField}
    (h : option ∈ kind.options) (text : OptionField → String) :
    (kind.valued text).get? option.name = some (option.transform.apply (text option)) := by
  rw [get?_valued, option?_name h, Option.map_some]

/-! ## Applying a line -/

namespace EscalationDraft

/-- The draft types what was assigned last. -/
def Recalls (d : EscalationDraft) (assignments : List Assignment) : Prop :=
  ∀ kind field, (d.typed kind).get? field = lastAssigned? assignments kind field

def assign (d : EscalationDraft) (a : Assignment) : EscalationDraft :=
  d.type a.kind a.field a.value

theorem get?_typed_assign (d : EscalationDraft) (a : Assignment) (kind : StepType)
    (field : String) :
    ((d.assign a).typed kind).get? field =
      if a.kind = kind ∧ a.field = field then some a.value else (d.typed kind).get? field := by
  simp only [assign, type]
  by_cases hkind : kind = a.kind
  · subst hkind
    simp [KeyMap.get?_insert, eq_comm]
  · simp [hkind, Ne.symm hkind]

theorem Recalls.assign {d : EscalationDraft} {assignments : List Assignment}
    (h : d.Recalls assignments) (a : Assignment) : (d.assign a).Recalls (assignments ++ [a]) := by
  intro kind field
  rw [lastAssigned?_concat, ← h kind field, get?_typed_assign]

/-! ### What completes -/

/-- What an operation leaves that may fail, if it does not. -/
def completed? {ε α : Type} : Except ε Unit × α → Option α
  | (.ok (), a) => some a
  | (.error _, _) => none

theorem setSegment_eq {d : EscalationDraft} {kind : StepType} (hkind : d.stepType = some kind)
    (spec : String) (segment : List Char) :
    (Spec.setSegment spec d segment).toOption = (Spec.assignment? kind segment).map d.assign := by
  rw [Spec.setSegment, Spec.assignment?]
  cases Text.splitOnce '=' segment with
  | none => rfl
  | some parts =>
    simp only [setOption, hkind, Option.bind_eq_bind, Option.bind_some]
    cases kind.option? (String.ofList (Text.trimChars parts.1)) <;> rfl

theorem setSegments_eq {d : EscalationDraft} {kind : StepType} (hkind : d.stepType = some kind)
    (spec : String) (segments : List (List Char)) :
    completed? (Spec.setSegments spec d segments) =
      (segments.mapM (Spec.assignment? kind)).map fun assignments =>
        assignments.foldl assign d := by
  induction segments generalizing d with
  | nil => rfl
  | cons segment rest ih =>
    have hsegment := setSegment_eq hkind spec segment
    rw [Spec.setSegments, List.mapM_cons]
    cases hset : Spec.setSegment spec d segment with
    | error cause =>
      rw [hset] at hsegment
      obtain hnone := Option.map_eq_none_iff.1 hsegment.symm
      simp [completed?, hnone]
    | ok r =>
      rw [hset] at hsegment
      obtain ⟨a, ha, rfl⟩ := Option.map_eq_some_iff.1 hsegment.symm
      have hrest := @ih (d.assign a) hkind
      simp only [hrest, ha]
      cases rest.mapM (Spec.assignment? kind) <;> rfl

/-- The draft with the step of one more line. -/
def commit (d : EscalationDraft) (line : StepLine) : EscalationDraft :=
  let r := line.assignments.foldl assign (d.selectType line.kind)
  { r with
    stepType := some line.kind
    steps := r.steps ++ [⟨line.kind, r.currentOptions line.kind⟩] }

theorem stepType_foldl_assign (d : EscalationDraft) (assignments : List Assignment) :
    (assignments.foldl assign d).stepType = d.stepType := by
  induction assignments generalizing d with
  | nil => rfl
  | cons a rest ih => exact ih (d.assign a)

theorem steps_foldl_assign (d : EscalationDraft) (assignments : List Assignment) :
    (assignments.foldl assign d).steps = d.steps := by
  induction assignments generalizing d with
  | nil => rfl
  | cons a rest ih => exact ih (d.assign a)

theorem name_foldl_assign (d : EscalationDraft) (assignments : List Assignment) :
    (assignments.foldl assign d).name = d.name := by
  induction assignments generalizing d with
  | nil => rfl
  | cons a rest ih => exact ih (d.assign a)

/-- What was assigned last takes the place of what was typed before. -/
theorem get?_typed_foldl_assign (d : EscalationDraft) (assignments : List Assignment)
    (kind : StepType) (field : String) :
    ((assignments.foldl assign d).typed kind).get? field =
      (lastAssigned? assignments kind field).or ((d.typed kind).get? field) := by
  induction assignments using List.reverseRecOn with
  | nil => rfl
  | append_singleton assignments a ih =>
    rw [List.foldl_concat, get?_typed_assign, lastAssigned?_concat, ih]
    split
    · rfl
    · rfl

theorem optionText_foldl_assign (d : EscalationDraft) (assignments : List Assignment)
    (kind : StepType) (option : OptionField) :
    (assignments.foldl assign d).optionText kind option =
      (lastAssigned? assignments kind option.name).getD (d.optionText kind option) := by
  rw [optionText, get?_typed_foldl_assign, Option.getD_or, ← optionText]

theorem applySpec_eq (d : EscalationDraft) (spec : String) :
    completed? (d.applySpec spec) = (StepLine.read? spec).map d.commit := by
  rw [applySpec, StepLine.read?]
  cases StepType.ofName? (Spec.typeName spec) with
  | none => rfl
  | some kind =>
    have hkind : (d.selectType kind).stepType = some kind := rfl
    have hsegments := setSegments_eq hkind spec (Spec.segments spec)
    simp only [Option.bind_eq_bind, Option.bind_some]
    cases hset : Spec.setSegments spec (d.selectType kind) (Spec.segments spec) with
    | mk outcome r =>
      rw [hset] at hsegments
      cases outcome with
      | error cause =>
        obtain hnone := Option.map_eq_none_iff.1 hsegments.symm
        simp [completed?, hnone]
      | ok _ =>
        obtain ⟨assignments, hassignments, rfl⟩ := Option.map_eq_some_iff.1 hsegments.symm
        have hselected := stepType_foldl_assign (d.selectType kind) assignments
        simp only [hassignments, EscalationDraft.addStep, hselected, hkind]
        rfl

theorem applySpecs_eq (d : EscalationDraft) (specs : List String) :
    (Console.applySpecs d specs).toOption =
      (specs.mapM StepLine.read?).map fun lines => lines.foldl commit d := by
  induction specs generalizing d with
  | nil => rfl
  | cons spec rest ih =>
    have hspec := d.applySpec_eq spec
    rw [Console.applySpecs, List.mapM_cons]
    cases happly : d.applySpec spec with
    | mk outcome r =>
      rw [happly] at hspec
      cases outcome with
      | error cause =>
        obtain hnone := Option.map_eq_none_iff.1 hspec.symm
        simp [Except.toOption, hnone]
      | ok _ =>
        obtain ⟨line, hline, rfl⟩ := Option.map_eq_some_iff.1 hspec.symm
        simp only [ih, hline]
        cases rest.mapM StepLine.read? <;> rfl

/-! ## The steps of all lines -/

theorem Recalls.foldl_assign {d : EscalationDraft} {assigned : List Assignment}
    (h : d.Recalls assigned) (assignments : List Assignment) :
    (assignments.foldl EscalationDraft.assign d).Recalls (assigned ++ assignments) := by
  induction assignments generalizing d assigned with
  | nil => rwa [List.append_nil]
  | cons a rest ih => simpa using ih (h.assign a)

/-- The draft of some lines: it types what they assigned last. -/
def ofLines (name : String) (lines : List StepLine) : EscalationDraft :=
  lines.foldl commit (empty.setName name)

theorem ofLines_concat (name : String) (lines : List StepLine) (line : StepLine) :
    ofLines name (lines ++ [line]) = (ofLines name lines).commit line := by
  rw [ofLines, List.foldl_concat, ofLines]

theorem recalls_ofLines (name : String) (lines : List StepLine) :
    (ofLines name lines).Recalls (lines.flatMap StepLine.assignments) := by
  induction lines using List.reverseRecOn with
  | nil => exact fun _ _ => rfl
  | append_singleton lines line ih =>
    rw [ofLines_concat, List.flatMap_append, List.flatMap_singleton]
    have hselected : ((ofLines name lines).selectType line.kind).Recalls
        (lines.flatMap StepLine.assignments) := ih
    exact hselected.foldl_assign line.assignments

theorem name_ofLines (name : String) (lines : List StepLine) :
    (ofLines name lines).name = name := by
  induction lines using List.reverseRecOn with
  | nil => rfl
  | append_singleton lines line ih =>
    rw [ofLines_concat]
    exact (name_foldl_assign _ _).trans ih

/-- The step of a line that comes after others. -/
def stepOf (lines : List StepLine) (line : StepLine) : Step :=
  ⟨line.kind, line.kind.valued (textAfter (lines ++ [line]) line.kind)⟩

theorem steps_ofLines_concat (name : String) (lines : List StepLine) (line : StepLine) :
    (ofLines name (lines ++ [line])).steps = (ofLines name lines).steps ++ [stepOf lines line] := by
  have hrecalls := recalls_ofLines name (lines ++ [line])
  rw [ofLines_concat] at hrecalls ⊢
  have htext : ((ofLines name lines).commit line).optionText line.kind =
      textAfter (lines ++ [line]) line.kind := by
    funext option
    rw [optionText, hrecalls, textAfter]
  show (line.assignments.foldl assign ((ofLines name lines).selectType line.kind)).steps ++
    [⟨line.kind, line.kind.valued (((ofLines name lines).commit line).optionText line.kind)⟩] = _
  rw [steps_foldl_assign, htext]
  rfl

/-- Every line has its step, in the order of the lines. -/
theorem steps_ofLines (name : String) (lines : List StepLine) :
    (ofLines name lines).steps.length = lines.length ∧
      ∀ (i : Nat) (line : StepLine), lines[i]? = some line →
        (ofLines name lines).steps[i]? = some (stepOf (lines.take i) line) := by
  induction lines using List.reverseRecOn with
  | nil => exact ⟨rfl, by simp⟩
  | append_singleton lines line ih =>
    obtain ⟨hlength, hsteps⟩ := ih
    rw [steps_ofLines_concat]
    refine ⟨by simp [hlength], fun i line' hline => ?_⟩
    rcases lt_trichotomy i lines.length with hlt | rfl | hgt
    · rw [List.getElem?_append_left hlt] at hline
      rw [List.getElem?_append_left (by omega), List.take_append_of_le_length (by omega)]
      exact hsteps i line' hline
    · rw [List.getElem?_concat_length, Option.some.injEq] at hline
      rw [← hlength, List.getElem?_concat_length, hlength, List.take_left' rfl, hline]
    · rw [List.getElem?_eq_none (by simp; omega)] at hline
      cases hline

end EscalationDraft

end AlertConsole
