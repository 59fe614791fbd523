import AlertConsole.Draft.Error

/-!
# Events worth reporting

What the console reports while it works, at one of two levels. An event is written as a message
followed by fields; texts that a user chose stand in quotes.
-/

namespace AlertConsole

inductive Level where
  | warn
  | info
  deriving DecidableEq

namespace Level

def name : Level → String
  | warn => "WARN"
  | info => "INFO"

/-- The least level that a log shows, by the name of a level; there is none if it shows nothing. -/
def ofName? (name : String) : Option Level :=
  match name.toLower with
  | "warn" => some warn
  | "info" => some info
  | _ => none

/-- A log that shows events from `least` on shows those of this level. -/
def isShownFrom (level least : Level) : Bool :=
  level == .warn || least == .info

end Level

inductive Event where
  | escalationDeleted (name : String)
  | policyDeleted (name : String)
  | submitted (kind : DraftKind) (name : String)
  | versionSelected (hash : String)
  | historyNotReloaded (cause : ApiError)
  | firstFetchFailed (cause : ApiError)
  | pollFailed (cause : ApiError)
  | pollingStarted (interval : Nat)
  | pollingStopped
  | incidentResolved (key : String)
  | refetchFailed (cause : ApiError)
  | sessionFileIgnored (path : String)
  | sessionFileChanged (path : String)
  | loggedIn (user : String)
  | loggedOut
  | unknownVersion (hash : String)
  | unknownEscalation (name : String)
  | escalationsNotListed (cause : ApiError)
  | sectionLeftOut (name : String)
  | interrupted
  | listShown (count : Nat)
  | sessionChanged

namespace Event

def level : Event → Level
  | historyNotReloaded _ => .warn
  | firstFetchFailed _ => .warn
  | pollFailed _ => .warn
  | refetchFailed _ => .warn
  | sessionFileIgnored _ => .warn
  | unknownVersion _ => .warn
  | unknownEscalation _ => .warn
  | escalationsNotListed _ => .warn
  | sectionLeftOut _ => .warn
  | interrupted => .warn
  | _ => .info

def message : Event → String
  | escalationDeleted _ => "escalation deleted"
  | policyDeleted _ => "policy deleted"
  | submitted _ _ => "configuration submitted"
  | versionSelected _ => "config version set as current"
  | historyNotReloaded _ => "snapshot refresh after revert failed"
  | firstFetchFailed _ => "incident fetch failed; keeping previous list"
  | pollFailed _ => "incident poll failed; keeping previous list"
  | pollingStarted _ => "incident polling started"
  | pollingStopped => "incident polling stopped"
  | incidentResolved _ => "incident resolved"
  | refetchFailed _ => "re-fetch after resolve failed"
  | sessionFileIgnored _ => "ignoring unreadable session file"
  | sessionFileChanged _ => "session changed on disk"
  | loggedIn _ => "logged in"
  | loggedOut => "logged out"
  | unknownVersion _ => "hash not in the fetched history"
  | unknownEscalation _ => "escalation is not configured on the server"
  | escalationsNotListed _ => "could not list escalations"
  | sectionLeftOut _ => "conditions without an escalation target are left out"
  | interrupted => "received ctrl-c, stopping"
  | listShown _ => "tick"
  | sessionChanged => "session changed, restarting incident feed"

/-- The fields of an event, each with its value as it is written. -/
def fields : Event → List (String × String)
  | escalationDeleted name => [("name", Text.quoted name)]
  | policyDeleted name => [("name", Text.quoted name)]
  | submitted kind name => [("kind", Text.quoted kind.name), ("name", name)]
  | versionSelected hash => [("hash", Text.quoted hash)]
  | historyNotReloaded cause => [("err", cause.message)]
  | firstFetchFailed cause => [("err", cause.message)]
  | pollFailed cause => [("err", cause.message)]
  | pollingStarted interval => [("interval_ms", toString interval)]
  | incidentResolved key => [("key", Text.quoted key)]
  | refetchFailed cause => [("err", cause.message)]
  | sessionFileIgnored path => [("path", path)]
  | sessionFileChanged path => [("path", path)]
  | loggedIn user => [("user", Text.quoted user)]
  | unknownVersion hash => [("hash", hash)]
  | unknownEscalation name => [("escalation", Text.quoted name)]
  | escalationsNotListed cause => [("err", cause.message)]
  | sectionLeftOut name => [("section", Text.quoted name)]
  | listShown count => [("count", toString count)]
  | pollingStopped => []
  | loggedOut => []
  | interrupted => []
  | sessionChanged => []

/-- The message and the fields, on one line. -/
def text (e : Event) : String :=
  e.message ++ String.join (e.fields.map fun (name, value) => s!" {name}={value}")

/-- The line that a log shows for an event at a time. -/
def logLine (e : Event) (time : String) : String :=
  let level := e.level.name
  time ++ " " ++ String.ofList (List.replicate (5 - level.length) ' ') ++ level ++ " " ++ e.text

end Event

end AlertConsole
