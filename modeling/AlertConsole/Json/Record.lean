import AlertConsole.Json.Reader
import AlertConsole.Text.Utf8

/-!
# Records read from bytes

A small record is read from its spelling, so that members which do not belong to it are passed over
whatever their value. The grammar of JSON looks at ASCII alone: a file is read byte for byte, and
only the strings that count have to be UTF-8.
-/

namespace AlertConsole.Json

/-- The spelling of a file, with a character in place of each byte. -/
def Spelling.ofBytes? (bytes : List UInt8) : Option Spelling :=
  Spelling.ofChars? (bytes.map fun b => Char.ofNat b.toNat)

/-- The text of a string whose characters stand for bytes. -/
def textOfBytePieces? (pieces : List Piece) : Option String :=
  (decodePieces? (fun c => [UInt8.ofNat c.toNat]) String.utf8EncodeChar pieces).bind Text.ofUtf8?

/-- The members with their keys as text. -/
def memberTexts? : List (List Piece × Spelling) → Option (List (String × Spelling))
  | [] => some []
  | (key, value) :: rest => do
    let k ← textOfBytePieces? key
    let ms ← memberTexts? rest
    pure ((k, value) :: ms)

/-- The values of the fields named, from an object or from an array of exactly these fields. A
field must not come twice, and members that are no fields do not count. -/
def Spelling.fields? (names : List String) : Spelling → Option (List (Option Spelling))
  | .object members => do
    let ms ← memberTexts? members
    if names.all fun name => ms.countP (·.1 == name) ≤ 1 then
      some (names.map fun name => ms.lookup name)
    else none
  | .array items => if items.length = names.length then some (items.map some) else none
  | _ => none

/-- The text of a string. -/
def Spelling.text? : Spelling → Option String
  | .string pieces => textOfBytePieces? pieces
  | _ => none

end AlertConsole.Json
