/-!
# UTF-8

`utf8` is the byte form of a text and `ofUtf8?` reads it back. `ofUtf8Lossy` reads any bytes, with
U+FFFD in place of each longest piece that could have begun a character but does not complete one.
-/

namespace AlertConsole.Text

/-- The bytes of a text. -/
def utf8 (s : String) : List UInt8 :=
  s.toList.flatMap String.utf8EncodeChar

/-- The text with these bytes, if they are well formed. -/
def ofUtf8? (bytes : List UInt8) : Option String :=
  String.fromUTF8? (ByteArray.mk bytes.toArray)

/-! ## Reading damaged text -/

/-- The number of continuation bytes that `lead` announces and the range of the first of them. -/
def continuation (lead : Nat) : Option (Nat × Nat × Nat) :=
  if 0xC2 ≤ lead ∧ lead ≤ 0xDF then some (1, 0x80, 0xBF)
  else if lead = 0xE0 then some (2, 0xA0, 0xBF)
  else if lead = 0xED then some (2, 0x80, 0x9F)
  else if 0xE1 ≤ lead ∧ lead ≤ 0xEF then some (2, 0x80, 0xBF)
  else if lead = 0xF0 then some (3, 0x90, 0xBF)
  else if 0xF1 ≤ lead ∧ lead ≤ 0xF3 then some (3, 0x80, 0xBF)
  else if lead = 0xF4 then some (3, 0x80, 0x8F)
  else none

/-- The state between two bytes: bytes still owed, the range of the next one and the value so
far. -/
structure Pending where
  owed : Nat
  least : Nat
  greatest : Nat
  value : Nat

/-- Starts a character at `b`. -/
def beginChar (b : Nat) : List Char × Option Pending :=
  if b < 0x80 then ([Char.ofNat b], none)
  else match continuation b with
    | none => (['\uFFFD'], none)
    | some (owed, least, greatest) =>
      ([], some ⟨owed, least, greatest, b % Nat.pow 2 (6 - owed)⟩)

/-- Takes the byte `b`; an unfinished character that `b` cannot continue is given up first. -/
def takeByte (pending : Option Pending) (b : Nat) : List Char × Option Pending :=
  match pending with
  | none => beginChar b
  | some p =>
    if p.least ≤ b ∧ b ≤ p.greatest then
      let value := p.value * 64 + b % 64
      if p.owed ≤ 1 then ([Char.ofNat value], none)
      else ([], some ⟨p.owed - 1, 0x80, 0xBF, value⟩)
    else
      let (cs, next) := beginChar b
      ('\uFFFD' :: cs, next)

def lossyChars (pending : Option Pending) : List UInt8 → List Char
  | [] => if pending.isSome then ['\uFFFD'] else []
  | b :: rest =>
    let (cs, next) := takeByte pending b.toNat
    cs ++ lossyChars next rest

def ofUtf8Lossy (bytes : List UInt8) : String :=
  String.ofList (lossyChars none bytes)

end AlertConsole.Text
