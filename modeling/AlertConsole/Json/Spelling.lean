import AlertConsole.Json.Basic
import AlertConsole.Number.Reading
import AlertConsole.Text.Hex

/-!
# What a JSON text spells out

A `Spelling` is a JSON text as written: numbers by their digits, strings by their pieces, objects
with every member in order. `Spelling.ofChars?` accepts the grammar of JSON and nothing else.
Whether a number has a value, an escape a character, or the nesting is too deep is decided where a
spelling is given its meaning.
-/

namespace AlertConsole.Json

open Number (Numeral spanDigits)

/-! ## Spellings -/

/-- A piece of a string: a character, or a sixteen-bit unit named by its code. -/
inductive Piece where
  | char (c : Char)
  | unit (code : Nat)
  deriving DecidableEq

/-- Digits before the point, digits after it if there is a point, and an exponent with the sign
before it. -/
structure NumberSpelling where
  negative : Bool
  whole : List Char
  fraction : Option (List Char)
  exponent : Option (Bool × List Char)
  deriving DecidableEq

inductive Spelling where
  | null
  | bool (value : Bool)
  | number (spelling : NumberSpelling)
  | string (pieces : List Piece)
  | array (items : List Spelling)
  | object (members : List (List Piece × Spelling))

/-! ## White space and words -/

/-- Space, tab, line feed and carriage return. -/
def isSpace (c : Char) : Bool :=
  c == ' ' || c == '\t' || c == '\n' || c == '\r'

def skipSpace (cs : List Char) : List Char :=
  cs.dropWhile isSpace

/-- What follows `word` at the start of `cs`. -/
def after? : List Char → List Char → Option (List Char)
  | [], cs => some cs
  | w :: word, c :: cs => if w = c then after? word cs else none
  | _ :: _, [] => none

/-! ## Strings -/

/-- The unit that four hexadecimal digits name. -/
def unitCode? (a b c d : Char) : Option Nat := do
  let a ← Text.hexValue? a
  let b ← Text.hexValue? b
  let c ← Text.hexValue? c
  let d ← Text.hexValue? d
  pure (((a * 16 + b) * 16 + c) * 16 + d)

/-- The character that a one-letter escape stands for. -/
def simpleEscape? (c : Char) : Option Char :=
  if c = '"' then some '"'
  else if c = '\\' then some '\\'
  else if c = '/' then some '/'
  else if c = 'b' then some '\x08'
  else if c = 'f' then some '\x0c'
  else if c = 'n' then some '\n'
  else if c = 'r' then some '\r'
  else if c = 't' then some '\t'
  else none

/-- The pieces of a string up to its closing quote, and what follows it. -/
def stringRest? : List Char → Option (List Piece × List Char)
  | [] => none
  | '"' :: rest => some ([], rest)
  | '\\' :: 'u' :: a :: b :: c :: d :: rest => do
    let code ← unitCode? a b c d
    let (pieces, rest) ← stringRest? rest
    pure (.unit code :: pieces, rest)
  | '\\' :: e :: rest => do
    let c ← simpleEscape? e
    let (pieces, rest) ← stringRest? rest
    pure (.char c :: pieces, rest)
  | c :: rest => do
    if c = '\\' ∨ c.toNat < 0x20 then none
    else
      let (pieces, rest) ← stringRest? rest
      pure (.char c :: pieces, rest)

/-! ## Numbers -/

/-- A run of digits that does not start with a zero unless it is one. -/
def wholePart? (cs : List Char) : Option (List Char × List Char) :=
  match spanDigits cs with
  | ([], _) => none
  | ('0' :: _ :: _, _) => none
  | (digits, rest) => some (digits, rest)

def fractionPart? : List Char → Option (Option (List Char) × List Char)
  | '.' :: rest =>
    match spanDigits rest with
    | ([], _) => none
    | (digits, rest) => some (some digits, rest)
  | cs => some (none, cs)

def exponentPart? : List Char → Option (Option (Bool × List Char) × List Char)
  | c :: rest =>
    if c = 'e' ∨ c = 'E' then
      let (negative, unsigned) := Number.takeSign rest
      match spanDigits unsigned with
      | ([], _) => none
      | (digits, rest) => some (some (negative, digits), rest)
    else some (none, c :: rest)
  | [] => some (none, [])

def number? (negative : Bool) (cs : List Char) : Option (NumberSpelling × List Char) := do
  let (whole, rest) ← wholePart? cs
  let (fraction, rest) ← fractionPart? rest
  let (exponent, rest) ← exponentPart? rest
  pure (⟨negative, whole, fraction, exponent⟩, rest)

/-! ## Values

Every call below takes at least one character before the next, so the number of characters bounds
the depth of the calls. -/

mutual

/-- The value at the start of `cs`, after white space, and what follows it. -/
def value? (fuel : Nat) (cs : List Char) : Option (Spelling × List Char) :=
  match fuel with
  | 0 => none
  | fuel + 1 =>
    match skipSpace cs with
    | [] => none
    | '"' :: rest => (stringRest? rest).map fun (pieces, rest) => (.string pieces, rest)
    | '[' :: rest =>
      match skipSpace rest with
      | ']' :: rest => some (.array [], rest)
      | rest => (items? fuel rest).map fun (items, rest) => (.array items, rest)
    | '\x7b' :: rest =>
      match skipSpace rest with
      | '\x7d' :: rest => some (.object [], rest)
      | rest => (members? fuel rest).map fun (members, rest) => (.object members, rest)
    | '-' :: rest => (number? true rest).map fun (n, rest) => (.number n, rest)
    | 'n' :: rest => (after? ['u', 'l', 'l'] rest).map fun rest => (.null, rest)
    | 't' :: rest => (after? ['r', 'u', 'e'] rest).map fun rest => (.bool true, rest)
    | 'f' :: rest => (after? ['a', 'l', 's', 'e'] rest).map fun rest => (.bool false, rest)
    | cs => (number? false cs).map fun (n, rest) => (.number n, rest)

/-- The items up to the closing bracket, of which there is at least one. -/
def items? (fuel : Nat) (cs : List Char) : Option (List Spelling × List Char) :=
  match fuel with
  | 0 => none
  | fuel + 1 =>
    match value? fuel cs with
    | none => none
    | some (item, rest) =>
      match skipSpace rest with
      | ']' :: rest => some ([item], rest)
      | ',' :: rest => (items? fuel rest).map fun (items, rest) => (item :: items, rest)
      | _ => none

/-- The members up to the closing brace, of which there is at least one. -/
def members? (fuel : Nat) (cs : List Char) :
    Option (List (List Piece × Spelling) × List Char) :=
  match fuel with
  | 0 => none
  | fuel + 1 =>
    match skipSpace cs with
    | '"' :: rest =>
      match stringRest? rest with
      | none => none
      | some (key, rest) =>
        match skipSpace rest with
        | ':' :: rest =>
          match value? fuel rest with
          | none => none
          | some (value, rest) =>
            match skipSpace rest with
            | '\x7d' :: rest => some ([(key, value)], rest)
            | ',' :: rest =>
              (members? fuel rest).map fun (members, rest) => ((key, value) :: members, rest)
            | _ => none
        | _ => none
    | _ => none

end

/-- The spelling that makes up all of `cs`, white space around it apart. -/
def Spelling.ofChars? (cs : List Char) : Option Spelling :=
  match value? (2 * cs.length + 1) cs with
  | some (v, rest) => if skipSpace rest = [] then some v else none
  | none => none

end AlertConsole.Json
