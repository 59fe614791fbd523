import AlertConsole.Catalog
import AlertConsole.Console.Command
import AlertConsole.Draft.Builder
import AlertConsole.Feed.Basic
import AlertConsole.History
import AlertConsole.Http.Client

/-!
# Running commands

Commands run in `Console`: they talk to the host and keep the session store along the way. A command
prints what it did, or fails with a `CommandError` after what it printed before.
-/

namespace AlertConsole

/-- Work on a host with a session at hand. -/
abbrev Console := StateT SessionStore (Dialogue Host)

namespace Console

/-! ## Surroundings -/

def host {α : Type} (d : Dialogue Host α) : Console α :=
  StateT.lift d

def print (text : String) : Console Unit :=
  host (Host.print text)

def printLine (line : String) : Console Unit :=
  print (line ++ "\n")

/-- Lines, each with its line feed. -/
def lines (ls : List String) : String :=
  String.join (ls.map (· ++ "\n"))

def report (event : Event) : Console Unit :=
  host (Host.report event)

/-- Consents to a line of the input that says so. -/
def isConsent (line : String) : Bool :=
  let answer := (Text.trim line).toLower
  answer == "y" || answer == "yes"

/-- Asks for consent on the terminal. Input that is no text does not consent. -/
def askConsent (title message : String) : Dialogue Host Bool := do
  Host.print s!"{title}: {message} [y/N] "
  pure ((← Host.readLine).elim false isConsent)

/-- Answers the questions of a dialogue with the server. -/
def answerApi (config : Config) (assumeYes : Bool) : (q : Api.Question) → Console (Api.Answer q)
  | .call request => fun store => Http.Client.call config request store
  | .report event => report event
  | .confirm title message => if assumeYes then pure true else host (askConsent title message)

def withApi {α : Type} (config : Config) (d : Dialogue Api α) (assumeYes : Bool) : Console α :=
  d.interpret (answerApi config assumeYes)

/-- Calls on the server that ask for no consent. -/
def onServer {α : Type} (config : Config) (d : Dialogue Api α) : Console α :=
  withApi config d false

/-- Lets a feed work whose fetches are answered at once. -/
def withFeed {α : Type} (config : Config) (d : Dialogue Feed.Link α) : Console α :=
  onServer config (d.interpret (Feed.overApi 0))

/-- Goes on after success. -/
def andThen {ε α : Type} (outcome : Except ε α) (fault : ε → CommandError)
    (next : α → Console Unit) : Console (Except CommandError Unit) :=
  match outcome with
  | .error cause => pure (.error (fault cause))
  | .ok a => do
    next a
    pure (.ok ())

/-! ## Session -/

def loginFault : SessionError → CommandError
  | .api cause => if cause.isAuthFailure then .badCredentials else .session (.api cause)
  | cause => .session cause

def login (config : Config) (user password : String) : Console (Except CommandError Unit) := do
  let outcome ← fun store => Http.Client.login config user password store
  andThen outcome loginFault fun () => printLine ("logged in as " ++ user)

def logout : Console (Except CommandError Unit) := do
  let outcome ← fun store => store.logout
  andThen outcome .session fun () => printLine "logged out"

def status (config : Config) : Console (Except CommandError Unit) := do
  let session ← fun store => store.session
  let token := if session.token.isSome then "present" else "absent"
  printLine s!"server={config.baseUrl} logged_in={session.loggedIn} token={token}"
  pure (.ok ())

/-! ## Incidents -/

/-- The label of a status, in nine columns. -/
def labelColumn (s : Status) : String :=
  s.label ++ String.ofList (List.replicate (9 - s.label.length) ' ')

def incidentLine (offset : Int) (e : Entry) : String :=
  s!"{labelColumn e.incident.status} {e.incident.describe offset}  [{e.key}]"

/-- A list of incidents in a format, each line with its line feed. -/
def incidentsText (offset : Int) (format : Format) (incidents : List Entry) : String :=
  match format with
  | .json => (Listing.toJson incidents).pretty ++ "\n"
  | .ndjson => (Listing.toJson incidents).compact ++ "\n"
  | .human =>
    lines (s!"=== Incidents ({incidents.length}) ===" :: incidents.map (incidentLine offset))

def showIncidents (config : Config) (format : Format) (incidents : List Entry) : Console Unit :=
  print (incidentsText config.timeOffset format incidents)

def incidents (config : Config) (format : Format) : Console (Except CommandError Unit) := do
  let (outcome, feed) ← withFeed config (Feed.idle config.pollInterval).refresh
  andThen outcome .api fun _ => showIncidents config format feed.incidents

def resolve (config : Config) (key : String) : Console (Except CommandError Unit) := do
  let (outcome, feed) ← withFeed config ((Feed.idle config.pollInterval).resolve key)
  andThen outcome .api fun () =>
    printLine s!"resolved {key}; {feed.incidents.length} incident(s) remain"

/-! ## Escalations -/

def stepLine (index : Nat) (s : Step) : String :=
  s!"  {index + 1}. {s.kind.title} {(Json.object s.options.entries).compact}"

/-- Names with their steps below them, each line with its line feed. -/
def escalationsText (listed : KeyMap (List Step)) : String :=
  if listed.isEmpty then "no escalations configured\n"
  else lines <| listed.entries.flatMap fun (name, steps) =>
    name :: steps.zipIdx.map fun (s, index) => stepLine index s

def listEscalations (config : Config) : Console (Except CommandError Unit) := do
  andThen (← onServer config Catalog.escalations) .api fun listed =>
    print (escalationsText listed)

def deleteEscalation (config : Config) (name : String) : Console (Except CommandError Unit) := do
  andThen (← onServer config (Catalog.deleteEscalation name)) .api fun () =>
    printLine ("deleted escalation " ++ name)

/-- The draft with a step for each specification. -/
def applySpecs (d : EscalationDraft) : List String → Except SpecError EscalationDraft
  | [] => .ok d
  | spec :: rest =>
    match d.applySpec spec with
    | (.ok (), d) => applySpecs d rest
    | (.error cause, _) => .error cause

def createEscalation (config : Config) (name : String) (specs : List String) :
    Console (Except CommandError Unit) := do
  match applySpecs (EscalationDraft.empty.setName name) specs with
  | .error cause => pure (.error (.spec cause))
  | .ok d =>
    let (outcome, _) ← onServer config (Draft.escalation d).submit
    andThen outcome .submit fun name =>
      printLine s!"saved escalation {name} ({specs.length} step(s))"

/-! ## Policies -/

def policyLines (name : String) (p : Policy) : List String :=
  [name ++ if p.isInert then " (inert)" else "", "  " ++ p.toJson.compact]

def policiesText (listed : KeyMap Policy) : String :=
  if listed.isEmpty then "no policies configured\n"
  else lines (listed.entries.flatMap fun (name, p) => policyLines name p)

def listPolicies (config : Config) : Console (Except CommandError Unit) := do
  andThen (← onServer config Catalog.policies) .api fun listed => print (policiesText listed)

def deletePolicy (config : Config) (name : String) : Console (Except CommandError Unit) := do
  andThen (← onServer config (Catalog.deletePolicy name)) .api fun () =>
    printLine ("deleted policy " ++ name)

def conditionDraft (c : ConditionArguments) : Except DraftError ConditionDraft := do
  let d ← c.chips.foldlM (fun d (key, value) => d.addChip key value) ConditionDraft.empty
  pure ((d.setOccurrences c.occurrences).setEscalation c.escalation)

def policyDraft (a : PolicyArguments) : Except DraftError PolicyDraft := do
  let d := PolicyDraft.empty.setName a.name
  let d ← a.matchChips.foldlM (fun d (key, value) => d.addMatch key value) d
  let d ← a.notMatchChips.foldlM (fun d (key, value) => d.addNotMatch key value) d
  let d := d.setNotMatchOccurrences a.notMatchOccurrences
  let crit ← conditionDraft a.crit
  let warn ← conditionDraft a.warn
  pure { d with crit, warn }

/-- The escalations that the conditions of a draft notify. -/
def targets (d : PolicyDraft) : List String :=
  d.crit.escalation.toList ++ d.warn.escalation.toList

def reportAll : List Event → Dialogue Api Unit
  | [] => pure ()
  | event :: rest => do
    Api.report event
    reportAll rest

/-- Warns of targets that the server does not list. -/
def checkTargets (d : PolicyDraft) : Dialogue Api Unit := do
  match ← Catalog.escalationNames with
  | .error cause => Api.report (.escalationsNotListed cause)
  | .ok known =>
    reportAll (((targets d).filter fun target => !known.contains target).map .unknownEscalation)

/-- A condition with chips that nobody would be notified of. -/
def isTargetless (c : ConditionDraft) : Bool :=
  c.chips ≠ [] && c.escalation.isNone

/-- The sections that will be left out although there are chips in them. -/
def sectionsLeftOut (d : PolicyDraft) : List String :=
  (if isTargetless d.crit then ["crit"] else []) ++ if isTargetless d.warn then ["warn"] else []

/-- Warns of what may be an oversight. -/
def checkPolicy (d : PolicyDraft) : Dialogue Api Unit := do
  if targets d ≠ [] then checkTargets d
  reportAll ((sectionsLeftOut d).map .sectionLeftOut)

def createPolicy (config : Config) (a : PolicyArguments) :
    Console (Except CommandError Unit) := do
  match policyDraft a with
  | .error cause => pure (.error (.draft cause))
  | .ok d =>
    onServer config (checkPolicy d)
    let (outcome, _) ← onServer config (Draft.policy d).submit
    andThen outcome .submit fun name => printLine ("saved policy " ++ name)

/-! ## Versions -/

def versionsText (offset : Int) (h : History) : String :=
  lines (h.snapshots.map fun s => s!"{s.hash}  {s.dateText offset}")

def listVersions (config : Config) : Console (Except CommandError Unit) := do
  let (outcome, history) ← onServer config History.empty.fetch
  andThen outcome .api fun _ => print (versionsText config.timeOffset history)

/-- Loads the history and goes back to a version, if the operator consents. -/
def fetchAndRevert (hash : String) : Dialogue Api (Except ApiError RevertOutcome) := do
  match ← History.empty.fetch with
  | (.error cause, _) => pure (.error cause)
  | (.ok _, history) =>
    if (history.snapshot? hash).isNone then Api.report (.unknownVersion hash)
    let (outcome, _) ← history.requestRevert hash
    pure outcome

def revert (config : Config) (hash : String) (assumeYes : Bool) :
    Console (Except CommandError Unit) := do
  andThen (← withApi config (fetchAndRevert hash) assumeYes) .api fun
    | .reverted => printLine ("config reverted to " ++ hash)
    | .cancelled => printLine "revert cancelled"

/-! ## Commands -/

def perform (config : Config) : Command → Console (Except CommandError Unit)
  | .login user password => login config user password
  | .logout => logout
  | .status => status config
  | .incidents format => incidents config format
  | .resolve key => resolve config key
  | .listEscalations => listEscalations config
  | .deleteEscalation name => deleteEscalation config name
  | .createEscalation name specs => createEscalation config name specs
  | .listPolicies => listPolicies config
  | .deletePolicy name => deletePolicy config name
  | .createPolicy policy => createPolicy config policy
  | .listVersions => listVersions config
  | .revert hash assumeYes => revert config hash assumeYes

/-- The session store that the settings ask for. -/
def openStore (config : Config) : Dialogue Host SessionStore :=
  config.sessionFile.elim (pure .inMemory) SessionStore.opened

/-- Work with a session store of its own. -/
def withStore {α : Type} (config : Config) (work : Console α) : Dialogue Host α := do
  let (a, _) ← work (← openStore config)
  pure a

end Console

end AlertConsole
