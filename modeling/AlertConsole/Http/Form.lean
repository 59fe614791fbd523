import AlertConsole.Text.Percent

/-!
# Form encoding

Names and values in the query of an address: letters, digits and `*-._` stand for themselves, a
space is a plus, and every other byte is percent-encoded.
-/

namespace AlertConsole.Http.Form

def keep (b : UInt8) : Bool :=
  let n := b.toNat
  Text.Percent.isAlphanumeric n || n == 0x2A || n == 0x2D || n == 0x2E || n == 0x5F

def encodeByte (b : UInt8) : List Char :=
  if b.toNat = 0x20 then ['+'] else Text.Percent.encodeByteWhere keep b

def encode (s : String) : String :=
  String.ofList ((Text.utf8 s).flatMap encodeByte)

/-- Pairs of a name and a value, joined by `&`. -/
def query (pairs : List (String × String)) : String :=
  "&".intercalate (pairs.map fun (name, value) => s!"{encode name}={encode value}")

end AlertConsole.Http.Form
