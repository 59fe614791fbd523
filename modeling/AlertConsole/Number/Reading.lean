import AlertConsole.Number.Binary64
import AlertConsole.Number.Integer

/-!
# Decimal numbers in text

A decimal number is an optional sign, digits with at most one point among or beside them, and an
optional exponent. `binary64?` rounds it correctly and refuses what rounds to infinity; the words
for infinity and for a value that is no number are refused too.
-/

namespace AlertConsole.Number

/-- The parts of a decimal number as written. -/
structure Numeral where
  negative : Bool
  whole : List Char
  fraction : List Char
  exponent : Int
  deriving DecidableEq

/-- The digits after a point, if `cs` starts with one. -/
def takeFraction : List Char → List Char × List Char
  | '.' :: rest => spanDigits rest
  | cs => ([], cs)

/-- The exponent that makes up all of `cs`: nothing, or `e` and an integer. -/
def exponentPart? : List Char → Option Int
  | [] => some 0
  | c :: rest => if c = 'e' ∨ c = 'E' then readInteger? rest else none

/-- The decimal number that makes up all of `cs`. -/
def Numeral.ofChars? (cs : List Char) : Option Numeral :=
  let (negative, unsigned) := takeSign cs
  let (whole, afterWhole) := spanDigits unsigned
  let (fraction, afterFraction) := takeFraction afterWhole
  if whole = [] ∧ fraction = [] then none
  else (exponentPart? afterFraction).map fun e => ⟨negative, whole, fraction, e⟩

/-- The digits before and after the point as one number. -/
def Numeral.digits (n : Numeral) : Nat :=
  digitsValue (n.whole ++ n.fraction)

def Numeral.toBinary64? (n : Numeral) : Option Binary64 :=
  Binary64.ofDecimal? n.negative n.digits (n.exponent - n.fraction.length)

def binary64? (cs : List Char) : Option Binary64 :=
  (Numeral.ofChars? cs).bind Numeral.toBinary64?

end AlertConsole.Number
