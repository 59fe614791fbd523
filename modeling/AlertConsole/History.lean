import AlertConsole.Api.Basic

/-!
# Versions of the configuration

The server keeps snapshots of its configuration, each with a hash and a time. A `History` holds
them newest first, with an index by hash, both from the same fetch. Going back to a version needs
the operator's consent.
-/

namespace AlertConsole

open Calendar (Instant)

/-! ## Snapshots -/

structure Snapshot where
  hash : String
  time : Instant
  deriving DecidableEq

namespace Snapshot

def toJson (s : Snapshot) : Json :=
  .object [("hash", .string s.hash), ("time_stamp", .string (s.time.utcText "Z"))]

def ofMembers (ms : List (String × Json)) : Decoded Snapshot := do
  let hash? ← Decode.member? ms "hash" Decode.string
  let time? ← Decode.member? ms "time_stamp" Decode.timestamp
  let hash ← Decode.required "hash" hash?
  let time ← Decode.required "time_stamp" time?
  pure ⟨hash, time⟩

def ofItems (items : List Json) : Decoded Snapshot := do
  let hash ← Decode.item "ConfigSnapshot" 2 items 0 Decode.string
  let time ← Decode.item "ConfigSnapshot" 2 items 1 Decode.timestamp
  Decode.noMoreThan 2 items
  pure ⟨hash, time⟩

def ofJson : Json → Decoded Snapshot :=
  Decode.record "ConfigSnapshot" ofMembers ofItems

/-- Clock time and date at an offset east of UTC, as in `1:5:9 January-03- 2026`. -/
def dateText (s : Snapshot) (offset : Int) : String :=
  let d := s.time.date offset
  s!"{s.time.twelveHourText offset} {Calendar.monthName d.month}-{Number.padded 2 d.day}- " ++
    Instant.yearText d.year

end Snapshot

/-! ## History -/

structure History where
  /-- Newest first. -/
  snapshots : List Snapshot
  byHash : KeyMap Snapshot

inductive RevertOutcome where
  | reverted
  | cancelled
  deriving DecidableEq

namespace History

def empty : History :=
  ⟨[], .empty⟩

/-- The history of the snapshots that the server answers. Snapshots of the same time come in the
reverse of the server's order, and of those with one hash the last listed is indexed. -/
def ofSnapshots (fetched : List Snapshot) : History :=
  let sorted := (fetched.mergeSort fun a b => a.time.le b.time).reverse
  ⟨sorted, .ofList (sorted.map fun s => (s.hash, s))⟩

def snapshot? (h : History) (hash : String) : Option Snapshot :=
  h.byHash.get? hash

/-- Decodes the answer to a request for all versions; `null` is an empty list. -/
def ofJson (body : Json) : Except ApiError History :=
  (Decode.optional (Decode.list Snapshot.ofJson) body).toApi.map fun fetched =>
    ofSnapshots (fetched.getD [])

/-- Loads the history and counts it. A failure keeps the history that was there. -/
def fetch (h : History) : Dialogue Api (Except ApiError Nat × History) := do
  match (← Api.get Family.version.listing).bind ofJson with
  | .ok fetched => pure (.ok fetched.snapshots.length, fetched)
  | .error cause => pure (.error cause, h)

/-- Makes a version the current one, and reloads the history once the server has accepted. -/
def setCurrent (h : History) (hash : String) : Dialogue Api (Except ApiError Unit × History) := do
  match ← Api.post (Family.version.path hash) none with
  | .error cause => pure (.error cause, h)
  | .ok () =>
    Api.report (.versionSelected hash)
    match ← h.fetch with
    | (.ok _, h) => pure (.ok (), h)
    | (.error cause, h) =>
      Api.report (.historyNotReloaded cause)
      pure (.ok (), h)

def revertTitle : String := "Revert Config"

def revertMessage (hash : String) : String :=
  "Are you sure you want to revert to config version: " ++ hash

/-- Asks the operator, and makes the version current if they consent. -/
def requestRevert (h : History) (hash : String) :
    Dialogue Api (Except ApiError RevertOutcome × History) := do
  if ← Api.confirm revertTitle (revertMessage hash) then
    let (outcome, h) ← h.setCurrent hash
    pure (outcome.map fun () => .reverted, h)
  else
    pure (.ok .cancelled, h)

end History

end AlertConsole
