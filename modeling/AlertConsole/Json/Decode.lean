import AlertConsole.Json.Printer
import AlertConsole.Number.Integer
import AlertConsole.Calendar.Timestamp
import AlertConsole.Text.Quoted

/-!
# Decoding JSON values

Decoders from a value to a type of the domain. A decoder reports the first fault that it meets:
the members of an object are read in key order, and a required member that is missing is reported
after those that are there. A record may also be given as an array of its fields.
-/

namespace AlertConsole

open Calendar (Instant TimestampError)
open Text (quoted)

/-! ## Faults -/

/-- What a decoder wants to see. -/
inductive Expectation where
  | map
  | sequence
  | string
  | int64
  | uint32
  | number
  | record (name : String)
  | variant
  | timestamp
  | nothing
  deriving DecidableEq

def Expectation.name : Expectation → String
  | map => "a map"
  | sequence => "a sequence"
  | string => "a string"
  | int64 => "i64"
  | uint32 => "u32"
  | number => "f64"
  | record name => "struct " ++ name
  | variant => "string or map"
  | timestamp => "an RFC 3339 formatted date and time string"
  | nothing => "unit"

inductive DecodeError where
  | wrongType (found : Json) (expected : Expectation)
  | outOfRange (found : Int) (expected : Expectation)
  | missingField (name : String)
  | unknownStatus (code : Int)
  | unknownVariant (name : String) (known : List String)
  | notSingleKey
  | tooFewItems (count : Nat) (record : String) (fields : Nat)
  | tooManyItems (count : Nat)
  | badTimestamp (cause : TimestampError)

/-- A value as it is named in a message. -/
def Json.described : Json → String
  | .null => "null"
  | .bool b => s!"boolean `{b}`"
  | .int n => s!"integer `{n}`"
  | .float x => "floating point `" ++ String.ofList (Json.floatChars x) ++ "`"
  | .string s => "string " ++ quoted s
  | .array _ => "sequence"
  | .object _ => "map"

def DecodeError.message : DecodeError → String
  | wrongType found expected => s!"invalid type: {found.described}, expected {expected.name}"
  | outOfRange n expected => s!"invalid value: integer `{n}`, expected {expected.name}"
  | missingField name => s!"missing field `{name}`"
  | unknownStatus code => s!"unknown status code {code}"
  | unknownVariant name known =>
    s!"unknown variant `{name}`, expected one of " ++
      ", ".intercalate (known.map fun k => s!"`{k}`")
  | notSingleKey => "invalid value: map, expected map with a single key"
  | tooFewItems count record fields =>
    s!"invalid length {count}, expected struct {record} with {fields} elements"
  | tooManyItems count => s!"invalid length {count}, expected fewer elements in array"
  | badTimestamp cause => cause.message

abbrev Decoded := Except DecodeError

namespace Decode

variable {α : Type}

/-! ## Scalars -/

def string : Json → Decoded String
  | .string s => .ok s
  | v => .error (.wrongType v .string)

/-- An integer of a range; a double is not one, whatever its value. -/
def intBetween (least greatest : Int) (expected : Expectation) : Json → Decoded Int
  | .int n => if least ≤ n ∧ n ≤ greatest then .ok n else .error (.outOfRange n expected)
  | v => .error (.wrongType v expected)

def int64 : Json → Decoded Int :=
  intBetween Number.int64Min Number.int64Max .int64

def uint32 (v : Json) : Decoded Nat :=
  (intBetween 0 Number.uint32Max .uint32 v).map Int.toNat

/-- Any number, as a double. -/
def number : Json → Decoded Binary64
  | .int n => .ok (Binary64.ofInt n)
  | .float x => .ok x
  | v => .error (.wrongType v .number)

def timestamp : Json → Decoded Instant
  | .string s => (Instant.ofText? s).mapError .badTimestamp
  | v => .error (.wrongType v .timestamp)

/-- `null`, or a value of `decode`. -/
def optional (decode : Json → Decoded α) : Json → Decoded (Option α)
  | .null => .ok none
  | v => (decode v).map some

/-! ## Collections -/

def list (decode : Json → Decoded α) : Json → Decoded (List α)
  | .array items => items.mapM decode
  | v => .error (.wrongType v .sequence)

def entry (decode : Json → Decoded α) (member : String × Json) : Decoded (String × α) :=
  (decode member.2).map fun a => (member.1, a)

def map (decode : Json → Decoded α) : Json → Decoded (KeyMap α)
  | .object members => (members.mapM (entry decode)).map KeyMap.ofList
  | v => .error (.wrongType v .map)

/-! ## Records -/

/-- The member `key`, if it is there. -/
def member? (members : List (String × Json)) (key : String) (decode : Json → Decoded α) :
    Decoded (Option α) :=
  match members.lookup key with
  | none => .ok none
  | some v => (decode v).map some

def memberD (members : List (String × Json)) (key : String) (decode : Json → Decoded α)
    (default : α) : Decoded α :=
  (member? members key decode).map (·.getD default)

/-- A member that has to be there. -/
def required (key : String) : Option α → Decoded α
  | some a => .ok a
  | none => .error (.missingField key)

/-- The item at `index`, or `default` where the array is shorter. -/
def itemD (items : List Json) (index : Nat) (decode : Json → Decoded α) (default : α) :
    Decoded α :=
  match items[index]? with
  | none => .ok default
  | some v => decode v

/-- An item that has to be there. -/
def item (name : String) (fields : Nat) (items : List Json) (index : Nat)
    (decode : Json → Decoded α) : Decoded α :=
  match items[index]? with
  | none => .error (.tooFewItems index name fields)
  | some v => decode v

/-- There are no more items than fields. -/
def noMoreThan (fields : Nat) (items : List Json) : Decoded Unit :=
  if fields < items.length then .error (.tooManyItems items.length) else .ok ()

/-- A record given by an object or by an array of its fields. -/
def record (name : String) (ofMembers : List (String × Json) → Decoded α)
    (ofItems : List Json → Decoded α) : Json → Decoded α
  | .object members => ofMembers members
  | .array items => ofItems items
  | v => .error (.wrongType v (.record name))

/-- A record that only an object can give. -/
def objectRecord (name : String) (ofMembers : List (String × Json) → Decoded α) :
    Json → Decoded α
  | .object members => ofMembers members
  | v => .error (.wrongType v (.record name))

/-- The members other than those named in `keys`. -/
def remaining (keys : List String) (members : List (String × Json)) : KeyMap Json :=
  KeyMap.ofList (members.filter fun member => !keys.contains member.1)

end Decode

end AlertConsole
