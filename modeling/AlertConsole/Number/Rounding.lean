/-!
# Rounding a quotient

`roundHalfEven num den` is the integer nearest to `num / den`; a quotient half-way between two
integers goes to the even one.
-/

namespace AlertConsole.Number

def roundHalfEven (num den : Nat) : Nat :=
  let q := num / den
  let r := num % den
  if 2 * r < den then q
  else if den < 2 * r then q + 1
  else q + q % 2

end AlertConsole.Number
