import AlertConsole.Calendar.Instant
import AlertConsole.Text.Blank
import AlertConsole.Number.Digits

/-!
# Reading timestamps

`Instant.ofText?` reads a date, a time of day and an offset from UTC in the manner of RFC 3339, but
less strictly: blanks may stand before a number and around a separator, a number may have fewer
digits, a year may have a sign and then any number of digits, the offset may lack its colon, and
the offset zero may be written `Z` or `UTC`. The first fault from the left is reported; a date that
does not exist is reported only for text without other faults.
-/

namespace AlertConsole.Calendar

open Number (digitValue digitsValue)
open Text (trimStart isBlank)

inductive TimestampError where
  | tooShort
  | invalid
  | outOfRange
  | trailing
  /-- The offset moves the instant out of the range of dates. -/
  | impossible
  deriving DecidableEq

def TimestampError.message : TimestampError → String
  | tooShort => "premature end of input"
  | invalid => "input contains invalid characters"
  | outOfRange => "input is out of range"
  | trailing => "trailing input"
  | impossible => "no possible date and time matching input"

namespace Timestamp

/-- A part of a timestamp is read to its value and the rest of the text. -/
abbrev Reading := Except TimestampError

/-! ## Numbers and separators -/

/-- The digits at the start of `cs`, at most `limit` of them if there is a limit. -/
def takeDigits (limit : Option Nat) (cs : List Char) : List Char :=
  let digits := cs.takeWhile Char.isDigit
  limit.elim digits digits.take

/-- A number of at least one digit. -/
def number (limit : Option Nat) (cs : List Char) : Reading (Nat × List Char) :=
  match takeDigits limit cs with
  | [] => .error (if cs = [] then .tooShort else .invalid)
  | digits => .ok (digitsValue digits, cs.drop digits.length)

/-- A number of one or two digits in a range, blanks before it allowed. -/
def field (least greatest : Nat) (cs : List Char) : Reading (Nat × List Char) := do
  let (n, rest) ← number (some 2) (trimStart cs)
  if least ≤ n ∧ n ≤ greatest then pure (n, rest) else .error .outOfRange

/-- A year: up to four digits, or a sign and any number of digits. -/
def year (cs : List Char) : Reading (Int × List Char) := do
  let (y, rest) ← match trimStart cs with
    | '-' :: rest => (number none rest).map fun (n, rest) => (-(n : Int), rest)
    | '+' :: rest => (number none rest).map fun (n, rest) => ((n : Int), rest)
    | cs => (number (some 4) cs).map fun (n, rest) => ((n : Int), rest)
  if -0x80000000 ≤ y ∧ y < 0x80000000 then pure (y, rest) else .error .outOfRange

/-- Takes `c`, blanks before it allowed. -/
def separator (c : Char) (cs : List Char) : Reading (List Char) :=
  match trimStart cs with
  | [] => .error .tooShort
  | d :: rest => if d = c then .ok rest else .error .invalid

/-! ## Parts of a timestamp -/

def date (cs : List Char) : Reading (Date × List Char) := do
  let (y, cs) ← year cs
  let cs ← separator '-' cs
  let (m, cs) ← field 1 12 cs
  let cs ← separator '-' cs
  let (d, cs) ← field 1 31 cs
  pure (⟨y, m, d⟩, cs)

/-- The mark between date and time: `T` of either case, or a space. -/
def timeMark : List Char → Reading (List Char)
  | [] => .error .tooShort
  | c :: rest => if c = 'T' ∨ c = 't' ∨ c = ' ' then .ok rest else .error .invalid

/-- A fraction of a second in nanoseconds; digits after the ninth are dropped. -/
def fraction : List Char → Reading (Nat × List Char)
  | '.' :: rest => do
    let (n, _) ← number (some 9) rest
    let digits := rest.takeWhile Char.isDigit
    pure (n * Nat.pow 10 (9 - digits.length), rest.drop digits.length)
  | cs => pure (0, cs)

/-- The second of the day, and nanoseconds from there. The second 60 is the leap second after the
second 59. -/
def timeOfDay (cs : List Char) : Reading ((Nat × Nat) × List Char) := do
  let (hour, cs) ← field 0 23 cs
  let cs ← separator ':' cs
  let (minute, cs) ← field 0 59 cs
  let cs ← separator ':' cs
  let (second, cs) ← field 0 60 cs
  let (nanos, cs) ← fraction cs
  let leap := if second = 60 then 1000000000 else 0
  pure ((hour * 3600 + minute * 60 + min second 59, nanos + leap), trimStart cs)

/-- Two digits. A text is too short for them when it has fewer than two bytes. -/
def twoDigits (cs : List Char) : Reading ((Nat × Nat) × List Char) :=
  match cs with
  | a :: b :: rest =>
    if a.isDigit ∧ b.isDigit then .ok ((digitValue a, digitValue b), rest) else .error .invalid
  | [a] => .error (if a.utf8Size < 2 then .tooShort else .invalid)
  | [] => .error .tooShort

def offsetHours (cs : List Char) : Reading (Nat × List Char) := do
  let ((a, b), rest) ← twoDigits cs
  pure (a * 10 + b, rest)

/-- The minutes of an offset, below 60. -/
def offsetMinutes (cs : List Char) : Reading (Nat × List Char) := do
  let ((a, b), rest) ← twoDigits cs
  if a ≤ 5 then pure (a * 10 + b, rest) else .error .outOfRange

def signedOffset (sign : Int) (cs : List Char) : Reading (Int × List Char) := do
  let (hours, cs) ← offsetHours cs
  let (minutes, cs) ← offsetMinutes (cs.dropWhile fun c => c == ':' || isBlank c)
  pure (sign * (hours * 3600 + minutes * 60 : Nat), cs)

/-- An offset from UTC in seconds. The minus may be a hyphen or U+2212. -/
def offset (cs : List Char) : Reading (Int × List Char) :=
  match cs with
  | [] => .error .tooShort
  | 'Z' :: rest => .ok (0, rest)
  | 'z' :: rest => .ok (0, rest)
  | '+' :: rest => signedOffset 1 rest
  | '-' :: rest => signedOffset (-1) rest
  | '\u2212' :: rest => signedOffset (-1) rest
  | u :: t :: c :: rest =>
    if [u, t, c].map Char.toUpper = ['U', 'T', 'C'] then .ok (0, rest) else .error .invalid
  | _ => .error .invalid

end Timestamp

/-- Reads a timestamp. -/
def Instant.ofText? (text : String) : Except TimestampError Instant := do
  let (date, cs) ← Timestamp.date text.toList
  let cs ← Timestamp.timeMark cs
  let ((second, nanos), cs) ← Timestamp.timeOfDay cs
  let (offset, cs) ← Timestamp.offset cs
  if trimStart cs ≠ [] then .error .trailing
  let start := date.dayNumber * secondsPerDay
  if ¬ date.isValid ∨ ¬ inRange start then .error .outOfRange
  if 86400 ≤ offset.natAbs then .error .outOfRange
  let seconds := start + second - offset
  if inRange seconds then pure ⟨seconds, nanos⟩ else .error .impossible

end AlertConsole.Calendar
