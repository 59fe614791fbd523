import AlertConsole.Json.Spelling

/-!
# The value of a JSON text

`Json.ofText?` reads a text. Digits alone are an integer when they fit a signed or an unsigned word
of 64 bits; every other number is a double, and too large a one is refused. Escapes of surrogates
must come in pairs. Arrays and objects nest at most 127 deep. Objects come out sorted by key, and of
several members with one key the last counts.
-/

namespace AlertConsole.Json

open Number (digitValue digitsValue)

/-! ## Strings -/

def isHighSurrogate (code : Nat) : Bool := 0xD800 ≤ code && code ≤ 0xDBFF
def isLowSurrogate (code : Nat) : Bool := 0xDC00 ≤ code && code ≤ 0xDFFF

/-- The character that a pair of surrogates stands for. -/
def surrogatePair (high low : Nat) : Char :=
  Char.ofNat (0x10000 + (high - 0xD800) * 0x400 + (low - 0xDC00))

/-- What the pieces of a string give, by `plain` for the characters that stand for themselves and by
`named` for those that are named by code; a surrogate that is not part of a pair has none. -/
def decodePieces? {α : Type} (plain named : Char → List α) : List Piece → Option (List α)
  | [] => some []
  | .char c :: rest => (decodePieces? plain named rest).map (plain c ++ ·)
  | .unit high :: .unit low :: rest =>
    if isHighSurrogate high then
      if isLowSurrogate low then
        (decodePieces? plain named rest).map (named (surrogatePair high low) ++ ·)
      else none
    else if isLowSurrogate high then none
    else (decodePieces? plain named (.unit low :: rest)).map (named (Char.ofNat high) ++ ·)
  | .unit code :: rest =>
    if isHighSurrogate code || isLowSurrogate code then none
    else (decodePieces? plain named rest).map (named (Char.ofNat code) ++ ·)

def textOfPieces? (pieces : List Piece) : Option String :=
  (decodePieces? (fun c => [c]) (fun c => [c]) pieces).map String.ofList

/-! ## Numbers -/

/-- Takes digits into `n` while a word of 64 bits holds it; the digits that are left come back. -/
def takeDigits (n : Nat) : List Char → Nat × List Char
  | [] => (n, [])
  | c :: rest =>
    let next := 10 * n + digitValue c
    if next ≤ Number.uint64Max then takeDigits next rest else (n, c :: rest)

/-- The largest power of ten by which a double is scaled in one step. -/
def largestPower : Nat := 308

def powerOfTen (n : Nat) : Binary64 :=
  (Binary64.ofDecimal? false 1 n).getD (Binary64.zero false)

/-- `x * 10 ^ e`, rounded at each step; each step scales by at most `largestPower` digits. -/
def scaleByTen? (x : Binary64) (e : Int) : Option Binary64 :=
  if e.natAbs ≤ largestPower then
    if 0 ≤ e then x.mul? (powerOfTen e.natAbs) else x.div? (powerOfTen e.natAbs)
  else if x.isZero then some x
  else if 0 ≤ e then none
  else (x.div? (powerOfTen largestPower)).bind fun y => scaleByTen? y (e + largestPower)
termination_by e.natAbs
decreasing_by simp only [largestPower] at *; omega

/-- A double from the digits that fit a 64-bit significand. Digits before the point that do not fit
count in the exponent, digits after it that do not fit are ignored. -/
def NumberSpelling.toFloat? (n : NumberSpelling) : Option Binary64 :=
  let fraction := n.fraction.getD []
  let (whole, wholeLeft) := takeDigits 0 n.whole
  let (significand, fractionLeft) := takeDigits whole fraction
  let written : Int := match n.exponent with
    | none => 0
    | some (negative, digits) => if negative then -(digitsValue digits : Int) else digitsValue digits
  let e := written + wholeLeft.length - (fraction.length - fractionLeft.length : Nat)
  (scaleByTen? (Binary64.ofInt significand) e).map fun x =>
    Binary64.ofMagnitude n.negative x.bits.toNat

/-- The integer that digits alone denote, if a word holds it; a negative zero is no integer. -/
def NumberSpelling.toInt? (n : NumberSpelling) : Option Int :=
  if n.fraction.isSome || n.exponent.isSome then none
  else
    let magnitude := digitsValue n.whole
    if n.negative then
      if magnitude = 0 ∨ (-magnitude : Int) < Number.int64Min then none else some (-magnitude)
    else if magnitude ≤ Number.uint64Max then some magnitude else none

def NumberSpelling.toJson? (n : NumberSpelling) : Option Json :=
  match n.toInt? with
  | some i => some (.int i)
  | none => n.toFloat?.map .float

/-! ## Values -/

mutual

/-- The value of a spelling that nests at most `depth` deep. -/
def Spelling.toJson? (depth : Nat) : Spelling → Option Json
  | .null => some .null
  | .bool b => some (.bool b)
  | .number n => n.toJson?
  | .string pieces => (textOfPieces? pieces).map .string
  | .array items =>
    match depth with
    | 0 => none
    | depth + 1 => (itemsToJson? depth items).map .array
  | .object members =>
    match depth with
    | 0 => none
    | depth + 1 => (membersToJson? depth members).map fun ms => .object (sortEntries ms)

def itemsToJson? (depth : Nat) : List Spelling → Option (List Json)
  | [] => some []
  | item :: rest => do
    let v ← item.toJson? depth
    let vs ← itemsToJson? depth rest
    pure (v :: vs)

def membersToJson? (depth : Nat) : List (List Piece × Spelling) → Option (List (String × Json))
  | [] => some []
  | (key, value) :: rest => do
    let k ← textOfPieces? key
    let v ← value.toJson? depth
    let ms ← membersToJson? depth rest
    pure ((k, v) :: ms)

end

/-- The deepest nesting that is read. -/
def maxDepth : Nat := 127

/-- The value of a JSON text. -/
def ofText? (text : String) : Option Json :=
  (Spelling.ofChars? text.toList).bind (·.toJson? maxDepth)

end AlertConsole.Json
