import AlertConsole.Text.Hex
import AlertConsole.Text.Utf8

/-!
# Percent encoding

`encode` writes every byte of a text except the unreserved ones as `%XX` with upper-case digits;
`decode?` reads such text back. `encodeWhere` leaves the choice of bytes to its caller.
-/

namespace AlertConsole.Text.Percent

/-! ## Encoding -/

/-- The three characters that stand for a byte. -/
def escape (b : UInt8) : List Char :=
  ['%', upperHexDigit (b.toNat / 16), upperHexDigit (b.toNat % 16)]

def isAlphanumeric (n : Nat) : Bool :=
  (0x30 ≤ n && n ≤ 0x39) || (0x41 ≤ n && n ≤ 0x5A) || (0x61 ≤ n && n ≤ 0x7A)

/-- Letters, digits, `-`, `_`, `.` and `~`. -/
def isUnreserved (b : UInt8) : Bool :=
  let n := b.toNat
  isAlphanumeric n || n == 0x2D || n == 0x2E || n == 0x5F || n == 0x7E

def encodeByteWhere (keep : UInt8 → Bool) (b : UInt8) : List Char :=
  if keep b then [Char.ofNat b.toNat] else escape b

/-- The bytes of `s`, those that `keep` refuses as escapes. -/
def encodeWhere (keep : UInt8 → Bool) (s : String) : List Char :=
  (utf8 s).flatMap (encodeByteWhere keep)

def encode (s : String) : String :=
  String.ofList (encodeWhere isUnreserved s)

/-! ## Decoding -/

/-- The bytes of percent-encoded text; a `%` without two digits after it stands for itself. -/
def decodeBytes : List Char → List UInt8
  | [] => []
  | '%' :: hi :: lo :: rest =>
    match hexValue? hi, hexValue? lo with
    | some h, some l => UInt8.ofNat (h * 16 + l) :: decodeBytes rest
    | _, _ => String.utf8EncodeChar '%' ++ decodeBytes (hi :: lo :: rest)
  | c :: rest => String.utf8EncodeChar c ++ decodeBytes rest

/-- The text that was encoded, if the bytes form one. -/
def decode? (s : String) : Option String :=
  ofUtf8? (decodeBytes s.toList)

end AlertConsole.Text.Percent
