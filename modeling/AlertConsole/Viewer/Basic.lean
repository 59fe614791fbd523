import AlertConsole.Incident.Listing

/-!
# The state of the viewer

A `Viewer` shows a list of incidents with one of them selected. `update` takes over a new list and
keeps the selection on the same incident as long as it is listed.
-/

namespace AlertConsole

structure Viewer where
  incidents : List Entry
  selected : Option Nat
  /-- The first row in sight, when the rows were drawn last. -/
  offset : Nat
  loggedIn : Bool
  polling : Bool
  message : Option String

namespace Viewer

def empty : Viewer :=
  ⟨[], none, 0, false, false, none⟩

/-- Moves the selection. Without one, the rows are shown from the first. -/
def select (v : Viewer) (index : Option Nat) : Viewer :=
  { v with selected := index, offset := if index.isNone then 0 else v.offset }

def selectedEntry? (v : Viewer) : Option Entry :=
  v.selected.bind (v.incidents[·]?)

/-- The index of the incident with a key. -/
def indexOf? (key : String) (incidents : List Entry) : Option Nat :=
  incidents.findIdx? (·.key == key)

/-- Takes over a list. The selection stays on its incident, or goes to the first one. -/
def update (v : Viewer) (incidents : List Entry) : Viewer :=
  let kept := v.selectedEntry?.bind fun e => indexOf? e.key incidents
  { v with incidents }.select (kept.or (if incidents = [] then none else some 0))

/-- The index `delta` rows from `current`, but not beyond the first or the last row. -/
def shifted (current : Nat) (delta : Int) (last : Nat) : Nat :=
  min (current + delta).toNat last

def move (v : Viewer) (delta : Int) : Viewer :=
  if v.incidents = [] then v
  else v.select (some (shifted (v.selected.getD 0) delta (v.incidents.length - 1)))

end Viewer

end AlertConsole
