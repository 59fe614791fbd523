import AlertConsole.Escalation.Draft

/-!
# Steps in one line

A step may be written `type[:field=value[;field=value]...]`. Blanks around the type and the field
names do not count, blank segments are skipped, and a value is everything after the first `=` of
its segment. Values left out keep what was typed for the type before.
-/

namespace AlertConsole

inductive SpecError where
  | draft (cause : DraftError)
  /-- A segment without `=`. -/
  | noValue (spec segment : String)

def SpecError.message : SpecError → String
  | draft cause => cause.message
  | noValue spec segment =>
    s!"expected field=value in step {Text.quoted spec}, got {Text.quoted segment}"

namespace Spec

/-- The text of the type, and that of the options. -/
def parts (spec : String) : List Char × List Char :=
  (Text.splitOnce ':' spec.toList).getD (spec.toList, [])

/-- The name of the type. -/
def typeName (spec : String) : String :=
  String.ofList (Text.trimChars (parts spec).1)

/-- The segments that are not blank. -/
def segments (spec : String) : List (List Char) :=
  (Text.splitAll ';' (parts spec).2).filter fun segment => !segment.all Text.isBlank

/-- Sets the option that one segment names. -/
def setSegment (spec : String) (d : EscalationDraft) (segment : List Char) :
    Except SpecError EscalationDraft :=
  match Text.splitOnce '=' segment with
  | none => .error (.noValue spec (String.ofList segment))
  | some (field, value) =>
    (d.setOption (String.ofList (Text.trimChars field)) (String.ofList value)).mapError .draft

/-- Sets the options of the segments in turn, up to the first that is wrong. -/
def setSegments (spec : String) (d : EscalationDraft) :
    List (List Char) → Except SpecError Unit × EscalationDraft
  | [] => (.ok (), d)
  | segment :: rest =>
    match setSegment spec d segment with
    | .ok d => setSegments spec d rest
    | .error e => (.error e, d)

end Spec

/-- Selects the type of a specification, sets its options and commits the step. A failure leaves
what was done before it. -/
def EscalationDraft.applySpec (d : EscalationDraft) (spec : String) :
    Except SpecError Unit × EscalationDraft :=
  match StepType.ofName? (Spec.typeName spec) with
  | none => (.error (.draft (.unknownStepType (Spec.typeName spec))), d)
  | some kind =>
    match Spec.setSegments spec (d.selectType kind) (Spec.segments spec) with
    | (.error e, d) => (.error e, d)
    | (.ok (), d) =>
      match d.addStep with
      | .ok (_, d) => (.ok (), d)
      | .error e => (.error (.draft e), d)

end AlertConsole
