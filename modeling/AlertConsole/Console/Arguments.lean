import AlertConsole.Config
import AlertConsole.Console.Command
import AlertConsole.Number.Integer
import AlertConsole.Policy.Chip

/-!
# The command line

`Invocation.ofArguments` reads the arguments of the console. Options for all commands stand before
the command, and those of a command after it. What does not follow the grammar is a `usage` fault;
`help` may be asked for anywhere.
-/

namespace AlertConsole.Console

/-- Why no command is run. -/
inductive Stop where
  | help
  | usage
  deriving DecidableEq

/-! ## Levels -/

inductive Arity where
  | flag
  | once
  | many
  deriving DecidableEq

structure OptionSpec where
  name : String
  arity : Arity
  accepts : String → Bool

/-- What may stand on one level of the command line: options, a number of operands, and names that
open the next level. -/
structure Level where
  options : List OptionSpec
  operands : Nat
  commands : List String

/-- What stood on a level. -/
structure Given where
  options : List (String × String)
  operands : List String
  /-- The last option, if its value was an argument of its own: it is checked when the next option
  or operand comes up, and else at the end. -/
  pending : Option (OptionSpec × String)

namespace Given

def nothing : Given :=
  ⟨[], [], none⟩

/-- Records an option with a value, unless it stood there before or refuses the value. -/
def record (g : Given) (o : OptionSpec) (value : String) : Except Stop Given :=
  if !o.accepts value then .error .usage
  else if o.arity ≠ .many ∧ (g.options.lookup o.name).isSome then .error .usage
  else .ok { g with options := g.options ++ [(o.name, value)] }

/-- Records the option that is pending. -/
def settle (g : Given) : Except Stop Given :=
  match g.pending with
  | none => .ok g
  | some (o, value) => { g with pending := none }.record o value

def addOperand (g : Given) (level : Level) (operand : String) : Except Stop Given := do
  let g ← g.settle
  if g.operands.length < level.operands then
    pure { g with operands := g.operands ++ [operand] }
  else .error .usage

/-! ### Look-up -/

def value? (g : Given) (name : String) : Option String :=
  g.options.lookup name

def values (g : Given) (name : String) : List String :=
  (g.options.filter (·.1 == name)).map (·.2)

def has (g : Given) (name : String) : Bool :=
  (g.value? name).isSome

def operand (g : Given) (index : Nat) : Except Stop String :=
  g.operands[index]?.elim (.error .usage) .ok

end Given

/-! ## Scanning -/

/-- An argument that cannot be the value of an option before it. -/
def looksLikeOption (arg : String) : Bool :=
  match arg.toList with
  | '-' :: _ :: _ => true
  | _ => false

/-- The name and the value of an argument `--name` or `--name=value`. -/
def longOption? (arg : String) : Option (String × Option String) :=
  match arg.toList with
  | '-' :: '-' :: rest =>
    some <| match Text.splitOnce '=' rest with
      | none => (String.ofList rest, none)
      | some (name, value) => (String.ofList name, some (String.ofList value))
  | _ => none

def asksForHelp (arg : String) : Bool :=
  match arg.toList with
  | '-' :: 'h' :: _ => true
  | _ => false

/-- Scans a level up to the name that opens the next, which comes back with what follows it. -/
def scan (level : Level) (g : Given) : List String → Except Stop (Given × List String)
  | [] => .ok (g, [])
  | arg :: rest =>
    if arg ∈ level.commands then .ok (g, arg :: rest)
    else if arg = "--" then do
      let g ← rest.foldlM (fun g operand => g.addOperand level operand) g
      pure (g, [])
    else match longOption? arg with
      | some ("help", none) => do
        let _ ← g.settle
        .error .help
      | some (name, value?) =>
        match level.options.find? (·.name == name), value? with
        | none, _ => .error .usage
        | some o, some value =>
          if o.arity = .flag then .error .usage
          else do scan level (← (← g.settle).record o value) rest
        | some o, none =>
          if o.arity = .flag then do scan level (← (← g.settle).record o "") rest
          else match rest with
            | [] => .error .usage
            | value :: rest =>
              if looksLikeOption value then .error .usage
              else do scan level { ← g.settle with pending := some (o, value) } rest
      | none =>
        if asksForHelp arg then do
          let _ ← g.settle
          .error .help
        else if looksLikeOption arg then .error .usage
        else do scan level (← g.addOperand level arg) rest

/-- Scans the arguments of a command that opens no further level. -/
def scanAll (options : List OptionSpec) (operands : Nat) (args : List String) :
    Except Stop Given := do
  let (g, _) ← scan ⟨options, operands, []⟩ .nothing args
  g.settle

/-! ## Options -/

def textOption (name : String) : OptionSpec :=
  ⟨name, .once, fun _ => true⟩

def wordOption (name : String) : OptionSpec :=
  ⟨name, .once, fun value => (Number.uint64? value.toList).isSome⟩

def countOption (name : String) : OptionSpec :=
  ⟨name, .once, fun value => (Number.uint32? value.toList).isSome⟩

def pairOption (name : String) : OptionSpec :=
  ⟨name, .many, fun value => (readPair value).toOption.isSome⟩

def formatOption : OptionSpec :=
  ⟨"format", .once, fun value => (Format.ofName? value).isSome⟩

namespace Given

def format (g : Given) : Format :=
  ((g.value? "format").bind Format.ofName?).getD .human

def word (g : Given) (name : String) (default : Nat) : Nat :=
  ((g.value? name).bind fun value => Number.uint64? value.toList).getD default

/-- A count of occurrences, which is one unless another is given. -/
def count (g : Given) (name : String) : Nat :=
  ((g.value? name).bind fun value => Number.uint32? value.toList).getD 1

def pairs (g : Given) (name : String) : List (String × String) :=
  (g.values name).filterMap fun value => (readPair value).toOption

end Given

/-! ## Commands -/

def loginCommand (password : Option String) (args : List String) : Except Stop Activity := do
  let g ← scanAll [textOption "user", textOption "pass"] 0 args
  match g.value? "user", (g.value? "pass").or password with
  | some user, some password => pure (.run (.login user password))
  | _, _ => .error .usage

def conditionOptions (name : String) : List OptionSpec :=
  [pairOption name, countOption (name ++ "-occurrences"), textOption (name ++ "-escalation")]

def conditionArguments (g : Given) (name : String) : ConditionArguments :=
  ⟨g.pairs name, g.count (name ++ "-occurrences"), g.value? (name ++ "-escalation")⟩

def policyOptions : List OptionSpec :=
  [pairOption "match", pairOption "not-match", countOption "not-match-occurrences"] ++
    conditionOptions "crit" ++ conditionOptions "warn"

def createPolicyCommand (args : List String) : Except Stop Activity := do
  let g ← scanAll policyOptions 1 args
  pure <| .run <| .createPolicy
    { name := ← g.operand 0
      matchChips := g.pairs "match"
      notMatchChips := g.pairs "not-match"
      notMatchOccurrences := g.count "not-match-occurrences"
      crit := conditionArguments g "crit"
      warn := conditionArguments g "warn" }

def createEscalationCommand (args : List String) : Except Stop Activity := do
  let g ← scanAll [⟨"step", .many, fun _ => true⟩] 1 args
  let name ← g.operand 0
  if g.has "step" then pure (.run (.createEscalation name (g.values "step")))
  else .error .usage

def revertCommand (args : List String) : Except Stop Activity := do
  let g ← scanAll [⟨"yes", .flag, fun _ => true⟩] 1 args
  pure (.run (.revert (← g.operand 0) (g.has "yes")))

/-- A command without options or operands. -/
def plainCommand (activity : Activity) (args : List String) : Except Stop Activity :=
  (scanAll [] 0 args).map fun _ => activity

def operandCommand (command : String → Command) (args : List String) : Except Stop Activity := do
  let g ← scanAll [] 1 args
  pure (.run (command (← g.operand 0)))

def formatCommand (activity : Format → Activity) (args : List String) : Except Stop Activity :=
  (scanAll [formatOption] 0 args).map fun g => activity g.format

/-! ## Groups of commands -/

/-- Commands below one name. -/
abbrev Group := List (String × (List String → Except Stop Activity))

def escalationGroup : Group :=
  [("list", plainCommand (.run .listEscalations)), ("delete", operandCommand .deleteEscalation),
    ("create", createEscalationCommand)]

def policyGroup : Group :=
  [("list", plainCommand (.run .listPolicies)), ("delete", operandCommand .deletePolicy),
    ("create", createPolicyCommand)]

def versionGroup : Group :=
  [("list", plainCommand (.run .listVersions)), ("revert", revertCommand)]

def groups : List (String × Group) :=
  [("escalations", escalationGroup), ("policies", policyGroup), ("versions", versionGroup)]

def groupNames (group : Group) : List String :=
  "help" :: group.map (·.1)

/-- Help on the commands of a group. -/
def groupHelp (group : Group) : List String → Stop
  | [] => .help
  | [name] => if name ∈ groupNames group then .help else .usage
  | _ => .usage

def groupCommand (group : Group) (args : List String) : Except Stop Activity := do
  match ← scan ⟨[], 0, groupNames group⟩ .nothing args with
  | (_, []) => .error .usage
  | (_, "help" :: rest) => .error (groupHelp group rest)
  | (_, name :: rest) => (group.lookup name).elim (.error .usage) (· rest)

/-- Every command of the first level but `help`, for a password from the surroundings. -/
def topCommands (password : Option String) : Group :=
  [("login", loginCommand password), ("logout", plainCommand (.run .logout)),
    ("status", plainCommand (.run .status)),
    ("incidents", formatCommand fun format => .run (.incidents format)),
    ("watch", formatCommand .watch), ("resolve", operandCommand .resolve),
    ("view", plainCommand .view)] ++
    groups.map fun (name, group) => (name, groupCommand group)

/-- Help on the commands of the first level. -/
def topHelp (password : Option String) : List String → Stop
  | [] => .help
  | [name] => if name ∈ groupNames (topCommands password) then .help else .usage
  | name :: rest => (groups.lookup name).elim .usage fun group => groupHelp group rest

/-! ## Invocations -/

/-- What the surroundings of the console say. -/
structure Environment where
  url : Option String
  sessionFile : Option String
  password : Option String

structure Invocation where
  config : Config
  activity : Activity

def defaultSessionFile : String := "./.bangctl/session.json"

def globalOptions : List OptionSpec :=
  [textOption "url", ⟨"session-file", .once, (· ≠ "")⟩, wordOption "interval-ms",
    wordOption "timeout-ms"]

/-- The settings that options and surroundings give; an empty name for the session file is a
fault. -/
def configOf (env : Environment) (g : Given) : Except Stop Config :=
  let standard := Config.standard
  let file := ((g.value? "session-file").or env.sessionFile).getD defaultSessionFile
  if file = "" then .error .usage
  else .ok
    { standard with
      baseUrl := ((g.value? "url").or env.url).getD standard.baseUrl
      pollInterval := g.word "interval-ms" standard.pollInterval
      requestTimeout := g.word "timeout-ms" standard.requestTimeout
      sessionFile := some file }

/-- Reads the arguments. Those of the command are read before the last option in front of it is
checked. -/
def Invocation.ofArguments (env : Environment) (args : List String) : Except Stop Invocation := do
  let commands := topCommands env.password
  let (g, rest) ← scan ⟨globalOptions, 0, groupNames commands⟩ .nothing args
  match rest with
  | [] => .error .usage
  | "help" :: rest => .error (topHelp env.password rest)
  | name :: rest =>
    let activity ← (commands.lookup name).elim (.error .usage) (· rest)
    let config ← configOf env (← g.settle)
    pure ⟨config, activity⟩

end AlertConsole.Console
