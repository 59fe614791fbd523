import AlertConsole.Number.Binary64

/-!
# Fixed places

`fixedText places x` writes the exact value of a double with a fixed number of places after the
point; a half goes to the even neighbour, and the sign of zero is kept.
-/

namespace AlertConsole.Number

def fixedText (places : Nat) (x : Binary64) : String :=
  let scale := Nat.pow 10 places
  let scaled := roundHalfEven (x.units * scale) Binary64.unitsPerOne
  let whole := String.ofList (Nat.toDigits 10 (scaled / scale))
  (if x.isNegative then "-" else "") ++ whole ++ "." ++ padded places (scaled % scale)

end AlertConsole.Number
