import AlertConsole.Json.Decode

/-!
# Policies

A `Policy` has up to four sections: fields an event has to match, fields it must not match, and
the conditions under which it is critical or a warning. In JSON the free fields of a section stand
beside its own members `occurences` and `escalation`, in one object; the spelling is the server's.
-/

namespace AlertConsole

structure NotMatch where
  occurrences : Nat
  fields : KeyMap Json

structure Condition where
  occurrences : Nat
  escalation : String
  fields : KeyMap Json

structure Policy where
  name : String
  matchFields : Option (KeyMap String)
  notMatch : Option NotMatch
  crit : Option Condition
  warn : Option Condition

namespace NotMatch

def toJson (n : NotMatch) : Json :=
  .object (("occurences", .int n.occurrences) :: n.fields.entries)

def ofMembers (ms : List (String × Json)) : Decoded NotMatch := do
  let occurrences ← Decode.memberD ms "occurences" Decode.uint32 0
  pure ⟨occurrences, Decode.remaining ["occurences"] ms⟩

def ofJson : Json → Decoded NotMatch :=
  Decode.objectRecord "NotMatch" ofMembers

end NotMatch

namespace Condition

def toJson (c : Condition) : Json :=
  .object <| ("occurences", .int c.occurrences) :: ("escalation", .string c.escalation) ::
    c.fields.entries

def ofMembers (ms : List (String × Json)) : Decoded Condition := do
  let escalation ← Decode.memberD ms "escalation" Decode.string ""
  let occurrences ← Decode.memberD ms "occurences" Decode.uint32 0
  pure ⟨occurrences, escalation, Decode.remaining ["occurences", "escalation"] ms⟩

def ofJson : Json → Decoded Condition :=
  Decode.objectRecord "Condition" ofMembers

end Condition

namespace Policy

/-- A policy that is valid but never fires. -/
def isInert (p : Policy) : Bool :=
  p.matchFields.isNone && p.notMatch.isNone && p.crit.isNone && p.warn.isNone

/-- A member that is left out when there is no value. -/
def sectionMember {α : Type} (key : String) (encode : α → Json) (s : Option α) :
    List (String × Json) :=
  (s.map fun a => (key, encode a)).toList

def toJson (p : Policy) : Json :=
  .object <| ("name", .string p.name) ::
    sectionMember "match" (Json.ofMap .string) p.matchFields ++
    sectionMember "not_match" NotMatch.toJson p.notMatch ++
    sectionMember "crit" Condition.toJson p.crit ++
    sectionMember "warn" Condition.toJson p.warn

/-- Members are read in key order; `name` has to be there. -/
def ofMembers (ms : List (String × Json)) : Decoded Policy := do
  let crit ← Decode.memberD ms "crit" (Decode.optional Condition.ofJson) none
  let matchFields ← Decode.memberD ms "match" (Decode.optional (Decode.map Decode.string)) none
  let name? ← Decode.member? ms "name" Decode.string
  let notMatch ← Decode.memberD ms "not_match" (Decode.optional NotMatch.ofJson) none
  let warn ← Decode.memberD ms "warn" (Decode.optional Condition.ofJson) none
  let name ← Decode.required "name" name?
  pure { name, matchFields, notMatch, crit, warn }

/-- Fields are read in the order of the structure. -/
def ofItems (items : List Json) : Decoded Policy := do
  let name ← Decode.item "PolicyConfig" 5 items 0 Decode.string
  let matchFields ← Decode.itemD items 1 (Decode.optional (Decode.map Decode.string)) none
  let notMatch ← Decode.itemD items 2 (Decode.optional NotMatch.ofJson) none
  let crit ← Decode.itemD items 3 (Decode.optional Condition.ofJson) none
  let warn ← Decode.itemD items 4 (Decode.optional Condition.ofJson) none
  Decode.noMoreThan 5 items
  pure { name, matchFields, notMatch, crit, warn }

def ofJson : Json → Decoded Policy :=
  Decode.record "PolicyConfig" ofMembers ofItems

end Policy

end AlertConsole
