import AlertConsole.Host
import AlertConsole.KeyMap
import AlertConsole.Path
import AlertConsole.Text.Utf8

/-!
# A tree of files in memory

A `Disk` holds files and directories by their place below one root. A path is walked name by name,
from the root or from a base directory: `..` leads back, a file has nothing below it, and a name
that no file can have blocks the way.
-/

namespace AlertConsole

inductive DiskNode where
  | file (bytes : List UInt8)
  | directory

/-- The names from the root to a file or a directory. -/
abbrev Place := List String

structure Disk where
  /-- Everything but the root, by its place with slashes between the names. -/
  nodes : KeyMap DiskNode

namespace Disk

def empty : Disk :=
  ⟨.empty⟩

def node? (d : Disk) (place : Place) : Option DiskNode :=
  if place = [] then some .directory else d.nodes.get? (Path.join place)

def put (d : Disk) (place : Place) (node : DiskNode) : Disk :=
  ⟨d.nodes.insert (Path.join place) node⟩

/-! ## Paths -/

/-- A file can have this name. -/
def isFileName (name : String) : Bool :=
  name.utf8ByteSize ≤ 255

/-- A path that may be walked. -/
def isUsable (path : String) : Bool :=
  path.utf8ByteSize ≤ 4095 && !path.toList.contains '\x00'

/-- Where a path starts. -/
def origin (base : Place) (path : String) : Place :=
  if Path.isAbsolute path then [] else base

/-- Where a name leads from a directory. -/
def follow (place : Place) (name : String) : Place :=
  if name = "." then place else if name = ".." then place.dropLast else place ++ [name]

/-! ## Walking -/

/-- What a path leads to. -/
inductive Sight where
  /-- Not even the directory is there. -/
  | absent
  /-- Nothing, in a directory that is there. -/
  | vacant (place : Place)
  | blocked
  | file (place : Place) (bytes : List UInt8)
  | directory

/-- Walks on from a directory. -/
def walk (d : Disk) (place : Place) : List String → Sight
  | [] => .directory
  | name :: rest =>
    if !isFileName name then .blocked
    else match d.node? (follow place name) with
      | none => if rest = [] then .vacant (follow place name) else .absent
      | some .directory => d.walk (follow place name) rest
      | some (.file bytes) => if rest = [] then .file (follow place name) bytes else .blocked

def sight (d : Disk) (base : Place) (path : String) : Sight :=
  if isUsable path then d.walk (origin base path) (Path.names path) else .blocked

/-! ## Changes

A change gives whether it succeeded, and the disk after it. A failure may leave directories that
were made on the way. -/

/-- Goes on from a directory, and makes the directories that are missing. -/
def makeWay (d : Disk) (place : Place) : List String → Bool × Disk
  | [] => (true, d)
  | name :: rest =>
    if !isFileName name then (false, d)
    else match d.node? (follow place name) with
      | none => (d.put (follow place name) .directory).makeWay (follow place name) rest
      | some .directory => d.makeWay (follow place name) rest
      | some (.file _) => (false, d)

/-- Makes a directory, and those that it is to be in. -/
def makeDirectory (d : Disk) (base : Place) (path : String) : Bool × Disk :=
  if isUsable path then d.makeWay (origin base path) (Path.steps path) else (false, d)

/-- Writes a file where directories are. -/
def write (d : Disk) (base : Place) (path : String) (bytes : List UInt8) : Bool × Disk :=
  match d.sight base path with
  | .vacant place => (true, d.put place (.file bytes))
  | .file place _ => (true, d.put place (.file bytes))
  | .absent => (false, d)
  | .blocked => (false, d)
  | .directory => (false, d)

/-- Writes a file, after making the directories that it is to be in. -/
def save (d : Disk) (base : Place) (path : String) (bytes : List UInt8) : Bool × Disk :=
  match d.makeDirectory base (Path.parent path) with
  | (false, made) => (false, made)
  | (true, made) => made.write base path bytes

/-- Removes a file. One that is missing counts as removed. -/
def remove (d : Disk) (base : Place) (path : String) : Bool × Disk :=
  match d.sight base path with
  | .absent => (true, d)
  | .vacant _ => (true, d)
  | .file place _ => (true, ⟨d.nodes.erase (Path.join place)⟩)
  | .blocked => (false, d)
  | .directory => (false, d)

/-! ## Reading -/

def read (d : Disk) (base : Place) (path : String) : FileContent :=
  match d.sight base path with
  | .absent => .missing
  | .vacant _ => .missing
  | .blocked => .unreadable
  | .directory => .unreadable
  | .file _ bytes => .bytes bytes

/-- The part of a joined place below a directory. -/
def below? (base : Place) (key : String) : Option String :=
  let root := (Path.join (base ++ [""])).toList
  if root.isPrefixOf key.toList then some (String.ofList (key.toList.drop root.length)) else none

/-- Every file below a directory, by its path from there. -/
def files (d : Disk) (base : Place) : List (String × List UInt8) :=
  d.nodes.entries.filterMap fun (key, node) =>
    match node with
    | .file bytes => (below? base key).map fun path => (path, bytes)
    | .directory => none

end Disk

end AlertConsole
