import AlertConsole.KeyMap
import AlertConsole.Number.Binary64

/-!
# JSON values

A number is an integer or a double, by how it was written. The members of an object are a list, in
the order in which they are to be written; `canonical` sorts the members of every object by key and
keeps the last one of each key, which is the form in which values are read.
-/

namespace AlertConsole

inductive Json where
  | null
  | bool (value : Bool)
  | int (value : Int)
  | float (value : Binary64)
  | string (value : String)
  | array (items : List Json)
  | object (members : List (String × Json))
  deriving Inhabited

namespace Json

mutual

/-- The value with the members of every object in key order, the last one of each key. -/
def canonical : Json → Json
  | .array items => .array (canonicalItems items)
  | .object members => .object (sortEntries (canonicalMembers members))
  | v => v

def canonicalItems : List Json → List Json
  | [] => []
  | v :: rest => canonical v :: canonicalItems rest

def canonicalMembers : List (String × Json) → List (String × Json)
  | [] => []
  | (key, v) :: rest => (key, canonical v) :: canonicalMembers rest

end

/-- The object with the entries of a map. -/
def ofMap {α : Type} (encode : α → Json) (m : KeyMap α) : Json :=
  .object (m.entries.map fun (key, value) => (key, encode value))

/-- The text of a string value, which may be absent. -/
def ofString? (s : Option String) : Json :=
  s.elim .null .string

/-- The value of a member, if `v` is an object that has it. -/
def member? (v : Json) (key : String) : Option Json :=
  match v with
  | .object members => members.lookup key
  | _ => none

end Json

end AlertConsole
