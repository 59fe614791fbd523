import AlertConsole.Incident.Status
import AlertConsole.Text.Hex

/-!
# Colours on the screen

`Color.ofHex?` reads a colour written as `#` and two hexadecimal digits for each of red, green and
blue. A plus may stand in place of the first digit of a pair.
-/

namespace AlertConsole

inductive Color where
  /-- That of the terminal. -/
  | reset
  | cyan
  | green
  | darkGray
  | rgb (red green blue : Nat)
  deriving DecidableEq

namespace Color

def channel? (a b : Char) : Option Nat :=
  if a = '+' then Text.hexValue? b
  else do
    let high ← Text.hexValue? a
    let low ← Text.hexValue? b
    pure (high * 16 + low)

def ofHexChars? : List Char → Option Color
  | ['#', r, r', g, g', b, b'] => do
    let red ← channel? r r'
    let green ← channel? g g'
    let blue ← channel? b b'
    pure (rgb red green blue)
  | _ => none

def ofHex? (text : String) : Option Color :=
  ofHexChars? text.toList

/-- The colour of a status. One that is not in hexadecimal form is green. -/
def ofStatus (s : Status) : Color :=
  (ofHex? s.color).getD green

end Color

end AlertConsole
