import AlertConsole.Json.Basic
import AlertConsole.Number.Shortest
import AlertConsole.Text.Hex

/-!
# Writing JSON

`Json.compact` writes a value without white space and `Json.pretty` with one member or item a line,
indented by two spaces. Members are written in the order in which the value holds them.
-/

namespace AlertConsole.Json

open Number (Decimal shortestDecimal)

/-! ## Doubles

The shortest digits that read back, with a point among them while the first digit stands at a power
of ten from -5 to 15 and with an exponent otherwise. -/

/-- Digits with the point after the first `n` of them, and at least one digit on each side. -/
def pointAfter (n : Nat) (digits : List Char) : List Char :=
  let digits := digits ++ List.replicate (n + 1 - digits.length) '0'
  digits.take n ++ '.' :: digits.drop n

def exponentChars (e : Int) : List Char :=
  ['e', if e < 0 then '-' else '+'] ++ Nat.toDigits 10 e.natAbs

def decimalChars (d : Decimal) : List Char :=
  let digits := Nat.toDigits 10 d.digits
  let first := d.exponent + digits.length - 1
  if 0 ≤ first ∧ first ≤ 15 then pointAfter (first.toNat + 1) digits
  else if -5 ≤ first ∧ first < 0 then
    ['0', '.'] ++ List.replicate (-first - 1).toNat '0' ++ digits
  else match digits with
    | [digit] => digit :: exponentChars first
    | digits => pointAfter 1 digits ++ exponentChars first

def floatChars (x : Binary64) : List Char :=
  (if x.isNegative then ['-'] else []) ++
    if x.isZero then ['0', '.', '0'] else decimalChars (shortestDecimal x)

/-! ## Strings -/

/-- A quote, a backslash or a control character as an escape, any other character as itself. -/
def escapedChar (c : Char) : List Char :=
  match c with
  | '"' => ['\\', '"']
  | '\\' => ['\\', '\\']
  | '\x08' => ['\\', 'b']
  | '\x0c' => ['\\', 'f']
  | '\n' => ['\\', 'n']
  | '\r' => ['\\', 'r']
  | '\t' => ['\\', 't']
  | c =>
    if c.toNat < 0x20 then
      ['\\', 'u', '0', '0', Text.lowerHexDigit (c.toNat / 16), Text.lowerHexDigit (c.toNat % 16)]
    else [c]

def stringChars (s : String) : List Char :=
  '"' :: s.toList.flatMap escapedChar ++ ['"']

/-! ## Values -/

/-- What is written alike with and without white space. -/
def scalarChars : Json → List Char
  | .null => ['n', 'u', 'l', 'l']
  | .bool true => ['t', 'r', 'u', 'e']
  | .bool false => ['f', 'a', 'l', 's', 'e']
  | .int n => (toString n).toList
  | .float x => floatChars x
  | .string s => stringChars s
  | .array _ => []
  | .object _ => []

mutual

def compactChars : Json → List Char
  | .array items => '[' :: compactItems items ++ [']']
  | .object members => '\x7b' :: compactMembers members ++ ['\x7d']
  | v => scalarChars v

def compactItems : List Json → List Char
  | [] => []
  | [v] => compactChars v
  | v :: rest => compactChars v ++ ',' :: compactItems rest

def compactMembers : List (String × Json) → List Char
  | [] => []
  | [(key, v)] => stringChars key ++ ':' :: compactChars v
  | (key, v) :: rest => stringChars key ++ ':' :: compactChars v ++ ',' :: compactMembers rest

end

def compact (v : Json) : String :=
  String.ofList (compactChars v)

/-- A line break and the indentation of the next line. -/
def newline (depth : Nat) : List Char :=
  '\n' :: List.replicate (2 * depth) ' '

mutual

def prettyChars (depth : Nat) : Json → List Char
  | .array [] => ['[', ']']
  | .array items => '[' :: prettyItems (depth + 1) items ++ newline depth ++ [']']
  | .object [] => ['\x7b', '\x7d']
  | .object members => '\x7b' :: prettyMembers (depth + 1) members ++ newline depth ++ ['\x7d']
  | v => scalarChars v

def prettyItems (depth : Nat) : List Json → List Char
  | [] => []
  | [v] => newline depth ++ prettyChars depth v
  | v :: rest => newline depth ++ prettyChars depth v ++ ',' :: prettyItems depth rest

def prettyMembers (depth : Nat) : List (String × Json) → List Char
  | [] => []
  | [(key, v)] => newline depth ++ stringChars key ++ [':', ' '] ++ prettyChars depth v
  | (key, v) :: rest =>
    newline depth ++ stringChars key ++ [':', ' '] ++ prettyChars depth v ++
      ',' :: prettyMembers depth rest

end

def pretty (v : Json) : String :=
  String.ofList (prettyChars 0 v)

end AlertConsole.Json
