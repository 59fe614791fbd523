/-!
# Decimal digits

Runs of decimal digits in text, their value, and how many digits a number has.
-/

namespace AlertConsole.Number

def digitValue (c : Char) : Nat :=
  c.toNat - 0x30

/-- The number that a run of digits denotes, most significant digit first. -/
def digitsValue (cs : List Char) : Nat :=
  cs.foldl (fun n c => 10 * n + digitValue c) 0

/-- The longest run of digits at the start of `cs`, and the rest. -/
def spanDigits (cs : List Char) : List Char × List Char :=
  cs.span Char.isDigit

def decimalLength (n : Nat) : Nat :=
  (Nat.toDigits 10 n).length

/-- `n` in at least `width` digits. -/
def padded (width n : Nat) : String :=
  let ds := Nat.toDigits 10 n
  String.ofList (List.replicate (width - ds.length) '0' ++ ds)

end AlertConsole.Number
