import AlertConsole.Text.Split

/-!
# Paths of files

A path is taken apart at its slashes. Empty names do not count, and a slash at the end asks for a
directory, as the name `.` does.
-/

namespace AlertConsole.Path

/-- A path from the root of the tree. -/
def isAbsolute (path : String) : Bool :=
  path.toList.head? == some '/'

/-- The names between the slashes that are not empty. -/
def parts (path : String) : List String :=
  ((Text.splitAll '/' path.toList).filter (· ≠ [])).map String.ofList

/-- The names on the way to a path. -/
def names (path : String) : List String :=
  if path.toList.getLast? = some '/' then parts path ++ ["."] else parts path

def join (names : List String) : String :=
  "/".intercalate names

/-- The names that lead anywhere. -/
def steps (path : String) : List String :=
  (names path).filter (· ≠ ".")

/-- The directory that a file is to be in. It is empty if no directory is named. -/
def parent (path : String) : String :=
  (if isAbsolute path then "/" else "") ++ join (steps path).dropLast

end AlertConsole.Path
