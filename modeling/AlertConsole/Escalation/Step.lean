import AlertConsole.Escalation.StepType

/-!
# Notification steps

A `Step` is a type with the options that were committed for it. In JSON the options stand beside
the member `type`, in one object.
-/

namespace AlertConsole

structure Step where
  kind : StepType
  options : KeyMap Json

namespace Step

def toJson (s : Step) : Json :=
  .object (("type", .string s.kind.name) :: s.options.entries)

def ofMembers (ms : List (String × Json)) : Decoded Step := do
  let kind? ← Decode.member? ms "type" StepType.ofJson
  let kind ← Decode.required "type" kind?
  pure ⟨kind, Decode.remaining ["type"] ms⟩

def ofJson : Json → Decoded Step :=
  Decode.objectRecord "EscalationStep" ofMembers

end Step

end AlertConsole
