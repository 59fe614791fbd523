import AlertConsole.Number.Binary64

/-!
# The shortest decimal that reads back

`shortestDecimal x` has the fewest digits of all decimal numbers that round to the double `x`, and
is the nearest of those to `x`. On the grid of decimals with a given number of digits only the two
neighbours of `x` have to be tried.
-/

namespace AlertConsole.Number

/-- The decimal number `digits * 10 ^ exponent`. -/
structure Decimal where
  digits : Nat
  exponent : Int
  deriving DecidableEq

/-- The power of ten of the first digit of `num / den`, which is no power of ten below one. -/
def leadingExponent (num den : Nat) : Int :=
  if den ≤ num then (decimalLength (num / den) : Int) - 1
  else -(decimalLength (den / num) : Int)

/-- The numbers that round to `significand * 2 ^ exponent` reach from `4 * significand` less this
many quarter units up to two quarter units more. -/
def quartersBelow (x : Binary64) : Nat :=
  if x.significand = Binary64.hiddenBit ∧ 0 < x.exponent then 1 else 2

/-- The decimal `c * 10 ^ p` rounds to `x`. -/
def roundsTo (x : Binary64) (c : Nat) (p : Int) : Bool :=
  let unit := Nat.pow 2 x.exponent * Nat.pow 10 (-p).toNat
  let point := 4 * c * (Binary64.unitsPerOne * Nat.pow 10 p.toNat)
  let low := (4 * x.significand - quartersBelow x) * unit
  let high := (4 * x.significand + 2) * unit
  if x.significand % 2 = 0 then low ≤ point && point ≤ high else low < point && point < high

/-- The best multiple of `10 ^ p` that rounds to `x`, if any does. -/
def onGrid? (x : Binary64) (p : Int) : Option Decimal :=
  let num := x.units * Nat.pow 10 (-p).toNat
  let den := Binary64.unitsPerOne * Nat.pow 10 p.toNat
  let c := num / den
  let nearest := roundHalfEven num den
  let other := if nearest = c then c + 1 else c
  if roundsTo x nearest p then some ⟨nearest, p⟩
  else if roundsTo x other p then some ⟨other, p⟩
  else none

/-- Drops trailing zeros of the digits. -/
def Decimal.normalize (fuel : Nat) (d : Decimal) : Decimal :=
  match fuel with
  | 0 => d
  | fuel + 1 =>
    if d.digits ≠ 0 ∧ d.digits % 10 = 0 then normalize fuel ⟨d.digits / 10, d.exponent + 1⟩ else d

/-- The shortest decimal for the magnitude of a finite double other than zero. -/
def shortestDecimal (x : Binary64) : Decimal :=
  let first := leadingExponent x.units Binary64.unitsPerOne
  let found := (List.range 17).findSome? fun (k : Nat) => onGrid? x (first - k)
  (found.getD ⟨0, 0⟩).normalize 20

end AlertConsole.Number
