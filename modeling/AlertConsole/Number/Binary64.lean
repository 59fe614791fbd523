import AlertConsole.Number.Rounding
import AlertConsole.Number.Digits

/-!
# Double-precision numbers

A `Binary64` is the 64 bits of an IEEE 754 double. A finite one has the value
`significand * 2 ^ exponent` units, with its sign; the number one has `unitsPerOne` of them.
`ofRatio?` rounds an exact quotient to the nearest double, ties to even, and fails when the result
would be infinite; products, quotients and decimal numbers are rounded through it.
-/

namespace AlertConsole

/-- A double-precision number, by its bits. -/
structure Binary64 where
  bits : UInt64
  deriving DecidableEq

namespace Binary64

open Number

/-! ## Parts -/

/-- The bit of a significand that is not stored; below it are the bits of the fraction. -/
def hiddenBit : Nat := 0x10000000000000

def signBit : Nat := 0x8000000000000000

/-- The units in the number one; a unit is the least positive double. -/
def unitsPerOne : Nat := Nat.pow 2 1074

def isNegative (x : Binary64) : Bool :=
  signBit ≤ x.bits.toNat

def biasedExponent (x : Binary64) : Nat :=
  x.bits.toNat / hiddenBit % 2048

def fraction (x : Binary64) : Nat :=
  x.bits.toNat % hiddenBit

def significand (x : Binary64) : Nat :=
  if x.biasedExponent = 0 then x.fraction else hiddenBit + x.fraction

/-- The power of two by which the significand counts units. -/
def exponent (x : Binary64) : Nat :=
  x.biasedExponent - 1

def isFinite (x : Binary64) : Bool :=
  x.biasedExponent != 2047

def isZero (x : Binary64) : Bool :=
  x.significand == 0

/-- The magnitude in units. -/
def units (x : Binary64) : Nat :=
  x.significand * Nat.pow 2 x.exponent

/-! ## Rounding to a double -/

/-- A sign and the lower 63 bits. -/
def ofMagnitude (negative : Bool) (magnitude : Nat) : Binary64 :=
  ⟨UInt64.ofNat (if negative then signBit + magnitude else magnitude)⟩

def zero (negative : Bool) : Binary64 :=
  ofMagnitude negative 0

/-- The double nearest to `num / den`, if it is finite. -/
def ofRatio? (negative : Bool) (num den : Nat) : Option Binary64 :=
  let scaled := num * unitsPerOne
  let e := Nat.log2 (scaled / den) - 52
  let magnitude := e * hiddenBit + roundHalfEven scaled (den * Nat.pow 2 e)
  if magnitude < 2047 * hiddenBit then some (ofMagnitude negative magnitude) else none

/-- The double nearest to an integer of at most 64 bits. -/
def ofInt (n : Int) : Binary64 :=
  (ofRatio? (decide (n < 0)) n.natAbs 1).getD (zero false)

/-- The double nearest to `digits * 10 ^ exponent`, if it is finite. Powers of ten far outside the
range of doubles are not computed. -/
def ofDecimal? (negative : Bool) (digits : Nat) (exponent : Int) : Option Binary64 :=
  let leading := exponent + decimalLength digits
  if digits = 0 ∨ leading < -330 then some (zero negative)
  else if 310 < leading then none
  else ofRatio? negative (digits * Nat.pow 10 exponent.toNat)
    (Nat.pow 10 (-exponent).toNat)

/-! ## Scaling -/

def mul? (x y : Binary64) : Option Binary64 :=
  ofRatio? (x.isNegative != y.isNegative) (x.units * y.units) (unitsPerOne * unitsPerOne)

def div? (x y : Binary64) : Option Binary64 :=
  ofRatio? (x.isNegative != y.isNegative) x.units y.units

end Binary64

end AlertConsole
