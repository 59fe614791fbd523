import AlertConsole.Text.Percent

/-!
# Paths on the server

Every object has its own path below the path of its family. A name is percent-encoded, so that it
stays within one segment whatever characters it has.
-/

namespace AlertConsole

/-- The kinds of object that have a name and a path. -/
inductive Family where
  | incident
  | escalation
  | policy
  | version
  deriving DecidableEq

namespace Family

/-- What the paths of a family start with. -/
def root : Family → String
  | incident => "api/incident/"
  | escalation => "api/escalation/config/"
  | policy => "api/policy/config/"
  | version => "api/config/version/"

/-- The path of all objects of a family. -/
def listing (f : Family) : String :=
  f.root ++ "*"

/-- The path of one object. -/
def path (f : Family) (name : String) : String :=
  f.root ++ Text.Percent.encode name

end Family

/-- The path at which a user name and a password buy a token. -/
def authPath : String := "api/auth/user"

end AlertConsole
