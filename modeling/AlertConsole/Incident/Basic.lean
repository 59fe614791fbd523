import AlertConsole.Incident.Status
import AlertConsole.Json.Decode
import AlertConsole.Number.Fixed

/-!
# Incidents

An `Incident` as the server reports it, its JSON form, the line that describes it, and the repair
of fields that newer servers give only as tags. `ofJson` and `toJson` are each other's inverse up
to the members that are left out when empty.
-/

namespace AlertConsole

open Calendar (Instant)

structure Incident where
  service : String
  subService : Option String
  host : String
  metric : Binary64
  /-- Seconds since 1970. -/
  time : Int
  status : Status
  policy : String
  escalation : String
  tags : KeyMap String

namespace Incident

/-! ## Decoding -/

def decodeStatus (v : Json) : Decoded Status := do
  let code ← Decode.int64 v
  match Status.ofCode? code with
  | some status => pure status
  | none => .error (.unknownStatus code)

/-- Tags; a server without any sends `null`. -/
def decodeTags (v : Json) : Decoded (KeyMap String) :=
  (Decode.optional (Decode.map Decode.string) v).map (·.getD .empty)

def zeroMetric : Binary64 := Binary64.zero false

/-- Members are read in key order; `time` and `status` have to be there. -/
def ofMembers (ms : List (String × Json)) : Decoded Incident := do
  let escalation ← Decode.memberD ms "escalation" Decode.string ""
  let host ← Decode.memberD ms "host" Decode.string ""
  let metric ← Decode.memberD ms "metric" Decode.number zeroMetric
  let policy ← Decode.memberD ms "policy" Decode.string ""
  let service ← Decode.memberD ms "service" Decode.string ""
  let status? ← Decode.member? ms "status" decodeStatus
  let subService ← Decode.memberD ms "sub_service" (Decode.optional Decode.string) none
  let tags ← Decode.memberD ms "tags" decodeTags .empty
  let time? ← Decode.member? ms "time" Decode.int64
  let time ← Decode.required "time" time?
  let status ← Decode.required "status" status?
  pure { service, subService, host, metric, time, status, policy, escalation, tags }

/-- Fields are read in the order of the structure. -/
def ofItems (items : List Json) : Decoded Incident := do
  let service ← Decode.itemD items 0 Decode.string ""
  let subService ← Decode.itemD items 1 (Decode.optional Decode.string) none
  let host ← Decode.itemD items 2 Decode.string ""
  let metric ← Decode.itemD items 3 Decode.number zeroMetric
  let time ← Decode.item "Incident" 9 items 4 Decode.int64
  let status ← Decode.item "Incident" 9 items 5 decodeStatus
  let policy ← Decode.itemD items 6 Decode.string ""
  let escalation ← Decode.itemD items 7 Decode.string ""
  let tags ← Decode.itemD items 8 decodeTags .empty
  Decode.noMoreThan 9 items
  pure { service, subService, host, metric, time, status, policy, escalation, tags }

def ofJson : Json → Decoded Incident :=
  Decode.record "Incident" ofMembers ofItems

/-! ## Encoding -/

/-- A member that is left out when its text is empty. -/
def textMember (key value : String) : List (String × Json) :=
  if value = "" then [] else [(key, .string value)]

def toJson (i : Incident) : Json :=
  .object <|
    [("service", .string i.service)] ++
    (i.subService.map fun s => ("sub_service", Json.string s)).toList ++
    [("host", .string i.host), ("metric", .float i.metric), ("time", .int i.time),
      ("status", .int i.status.code)] ++
    textMember "policy" i.policy ++ textMember "escalation" i.escalation ++
    if i.tags.isEmpty then [] else [("tags", Json.ofMap .string i.tags)]

/-! ## Repair -/

/-- Takes service and host, where they are empty, and the part of the service, where there is none,
from the tags of the same names. -/
def backfill (i : Incident) : Incident :=
  { i with
    service := if i.service = "" then (i.tags.get? "service").getD "" else i.service
    host := if i.host = "" then (i.tags.get? "host").getD "" else i.host
    subService := i.subService.or (i.tags.get? "sub_service") }

/-! ## Description -/

def instant? (i : Incident) : Option Instant :=
  Instant.ofSeconds? i.time

/-- Clock time and date at an offset east of UTC, as in `10:13:20PM November-14-2023`. -/
def timeText (t : Instant) (offset : Int) : String :=
  let d := t.date offset
  s!"{t.twelveHourText offset}{t.halfDayText offset} " ++
    s!"{Calendar.monthName d.month}-{Number.padded 2 d.day}-{Instant.yearText d.year}"

def describe (i : Incident) (offset : Int) : String :=
  let part := match i.subService with
    | none => " "
    | some s => if s = "" then " " else "." ++ s
  let time := match i.instant? with
    | none => "unknown time"
    | some t => timeText t offset
  s!"{i.service}{part} on {i.host} is {Number.fixedText 2 i.metric} at {time}"

end Incident

end AlertConsole
