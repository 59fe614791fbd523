import AlertConsole.Draft.Error
import AlertConsole.Text.Quoted

/-!
# Chips

A `Chip` is a key and a value, neither of them blank. On the command line a pair is written
`key=value`; blanks around the key do not count.
-/

namespace AlertConsole

structure Chip where
  key : String
  value : String
  deriving DecidableEq

namespace Chip

def make (key value : String) : Except DraftError Chip :=
  if Text.isBlankText key || Text.isBlankText value then .error .emptyChip else .ok ⟨key, value⟩

end Chip

/-- Why a text is not a pair. -/
inductive PairError where
  | noEquals (raw : String)
  | noKey (raw : String)

def PairError.message : PairError → String
  | noEquals raw => "expected key=value, got " ++ Text.quoted raw
  | noKey raw => "missing key in " ++ Text.quoted raw

/-- The key and the value of a text `key=value`; the value is everything after the first `=`. -/
def readPair (raw : String) : Except PairError (String × String) :=
  match Text.splitOnce '=' raw.toList with
  | none => .error (.noEquals raw)
  | some (key, value) =>
    match Text.trimChars key with
    | [] => .error (.noKey raw)
    | key => .ok (String.ofList key, String.ofList value)

end AlertConsole
