import AlertConsole.Number.Digits

/-!
# Integers in text

An integer is an optional sign followed by one or more ASCII digits; leading zeros are allowed. The
ranges are those of machine words: `int64?` and `uint32?` refuse what does not fit.
-/

namespace AlertConsole.Number

def int64Min : Int := -0x8000000000000000
def int64Max : Int := 0x7FFFFFFFFFFFFFFF
def uint32Max : Int := 0xFFFFFFFF
def uint64Max : Int := 0xFFFFFFFFFFFFFFFF

/-- A sign, if there is one, and what follows it. -/
def takeSign : List Char → Bool × List Char
  | '+' :: rest => (false, rest)
  | '-' :: rest => (true, rest)
  | cs => (false, cs)

/-- The integer that `cs` spells out, whatever its size. -/
def readInteger? (cs : List Char) : Option Int :=
  let (negative, digits) := takeSign cs
  if digits ≠ [] ∧ digits.all Char.isDigit then
    some (if negative then -(digitsValue digits : Int) else digitsValue digits)
  else none

def int64? (cs : List Char) : Option Int :=
  (readInteger? cs).filter fun n => int64Min ≤ n && n ≤ int64Max

/-- An unsigned word of 64 bits; a minus sign is refused even before a zero. -/
def uint64? (cs : List Char) : Option Nat :=
  match cs with
  | '-' :: _ => none
  | _ => ((readInteger? cs).filter (· ≤ uint64Max)).map Int.toNat

/-- A number of 0 to 2 ^ 32 - 1, read as a signed integer first. -/
def uint32? (cs : List Char) : Option Nat :=
  ((int64? cs).filter fun n => 0 ≤ n && n ≤ uint32Max).map Int.toNat

end AlertConsole.Number
