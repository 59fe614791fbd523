import AlertConsole.Incident.Basic
import AlertConsole.Api.Error

/-!
# The list of incidents

The server answers a map from keys to incidents. A `Listing` shows it as entries in display order:
the worst status first, then the latest time, then by key. `Entry.Before` declares that order, and
`order` sorts by it.
-/

namespace AlertConsole

structure Entry where
  key : String
  incident : Incident

namespace Entry

/-- `a` is shown before `b`. -/
def Before (a b : Entry) : Prop :=
  b.incident.status.code < a.incident.status.code ∨
    (a.incident.status = b.incident.status ∧
      (b.incident.time < a.incident.time ∨
        (a.incident.time = b.incident.time ∧ a.key < b.key)))

/-- `a` is shown before `b`, or ties with it. -/
def precedes (a b : Entry) : Bool :=
  if a.incident.status ≠ b.incident.status then
    decide (b.incident.status.code < a.incident.status.code)
  else if a.incident.time ≠ b.incident.time then
    decide (b.incident.time < a.incident.time)
  else decide (a.key ≤ b.key)

def toJson (e : Entry) : Json :=
  .object [("key", .string e.key), ("value", e.incident.toJson)]

end Entry

namespace Listing

/-- The entries of a map in display order, repaired from their tags. -/
def order (incidents : KeyMap Incident) : List Entry :=
  (incidents.entries.map fun (key, i) => ⟨key, i.backfill⟩).mergeSort Entry.precedes

/-- Decodes the answer to a request for all incidents; `null` is an empty map. -/
def ofJson (body : Json) : Except ApiError (List Entry) :=
  (Decode.optional (Decode.map Incident.ofJson) body).toApi.map fun incidents =>
    order (incidents.getD .empty)

def toJson (entries : List Entry) : Json :=
  .array (entries.map Entry.toJson)

end Listing

end AlertConsole
