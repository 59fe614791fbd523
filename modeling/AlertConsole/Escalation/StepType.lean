import AlertConsole.Json.Decode
import AlertConsole.Number.Reading
import AlertConsole.Text.Blank
import AlertConsole.Text.Split

/-!
# Types of notification step

A `StepType` has a schema: the options that a step of this type takes, each with a default and a
`Transform` from what was typed to what is sent.
-/

namespace AlertConsole

/-! ## From typed text to a value -/

/-- How the text typed for an option becomes the value that is sent. -/
inductive Transform where
  | identity
  | splitComma
  | numeric
  deriving DecidableEq

namespace Transform

/-- The parts between commas, without the blanks around them; blank parts are dropped. -/
def commaParts (raw : List Char) : List (List Char) :=
  ((Text.splitAll ',' raw).map Text.trimChars).filter (· ≠ [])

/-- An integer of 64 bits, else a finite decimal number, else the text as it was typed. -/
def numericValue (raw : String) : Json :=
  let trimmed := Text.trimChars raw.toList
  match Number.int64? trimmed with
  | some n => .int n
  | none => match Number.binary64? trimmed with
    | some x => .float x
    | none => .string raw

def apply : Transform → String → Json
  | identity, raw => .string raw
  | splitComma, raw => .array ((commaParts raw.toList).map fun part => .string (String.ofList part))
  | numeric, raw => numericValue raw

def name : Transform → String
  | identity => "identity"
  | splitComma => "split_comma"
  | numeric => "numeric"

end Transform

/-! ## Schemas -/

structure OptionField where
  name : String
  title : String
  default : String
  transform : Transform

inductive StepType where
  | pagerDuty
  | email
  | console
  | grafanaGraphiteAnnotation
  deriving DecidableEq

namespace StepType

def all : List StepType :=
  [pagerDuty, email, console, grafanaGraphiteAnnotation]

def name : StepType → String
  | pagerDuty => "pager_duty"
  | email => "email"
  | console => "console"
  | grafanaGraphiteAnnotation => "grafana_graphite_annotation"

def title : StepType → String
  | pagerDuty => "Pagerduty"
  | email => "Email"
  | console => "Console"
  | grafanaGraphiteAnnotation => "Grafana Graphite Annotation"

def options : StepType → List OptionField
  | pagerDuty =>
    [⟨"key", "Api Key", "", .identity⟩, ⟨"subdomain", "Subdomain", "", .identity⟩]
  | email =>
    [⟨"recipients", "To", "", .splitComma⟩, ⟨"sender", "From", "", .identity⟩,
      ⟨"user", "User", "", .identity⟩, ⟨"password", "Password", "", .identity⟩,
      ⟨"host", "Host", "smtp.gmail.com", .identity⟩, ⟨"port", "Port", "465", .numeric⟩]
  | console => []
  | grafanaGraphiteAnnotation =>
    [⟨"host", "Host", "", .identity⟩, ⟨"port", "Port", "2003", .numeric⟩]

/-- The option of the schema with a name. -/
def option? (kind : StepType) (field : String) : Option OptionField :=
  kind.options.find? (·.name == field)

def ofName? (name : String) : Option StepType :=
  all.find? (·.name == name)

theorem ofName_name (kind : StepType) : ofName? kind.name = some kind := by
  cases kind <;> decide

/-! ## Decoding -/

def ofVariant (name : String) : Decoded StepType :=
  match ofName? name with
  | some kind => .ok kind
  | none => .error (.unknownVariant name (all.map StepType.name))

/-- A type is given by its name, or by an object with its name as the only key and no value. -/
def ofJson : Json → Decoded StepType
  | .string name => ofVariant name
  | .object [(name, v)] => do
    let kind ← ofVariant name
    match v with
    | .null => pure kind
    | v => .error (.wrongType v .nothing)
  | .object _ => .error .notSingleKey
  | v => .error (.wrongType v .variant)

end StepType

end AlertConsole
