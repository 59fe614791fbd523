import AlertConsole.Number.Integer
import AlertConsole.Text.Split
import AlertConsole.Text.Utf8

/-!
# Keys typed at the viewer

A terminal sends a key as one character or as an escape sequence, and text that is pasted between
two sequences of its own. `Key.ofBytes` takes the bytes apart with a machine that reads them one by
one; an escape character is a key of its own only when a second one or the end follows.
-/

namespace AlertConsole

inductive Key where
  | char (c : Char)
  | up
  | down
  | escape
  /-- A key that the viewer has no use for. A report that a key is held or released counts as one;
  no terminal sends such a report unasked. -/
  | other
  deriving DecidableEq

namespace Key

/-- A character by itself. A letter typed with the control key counts as that letter. -/
def ofChar (c : Char) : Key :=
  let n := c.toNat
  if c = '\t' ∨ c = '\r' ∨ 0x7F ≤ n then .other
  else if 1 ≤ n ∧ n ≤ 26 then .char (Char.ofNat (n + 0x60))
  else .char c

def arrow (c : Char) : Key :=
  if c = 'A' then .up else if c = 'B' then .down else .other

/-! ## Sequences with numbers

The numbers stand in fields between semicolons, and a field has parts between colons. The second
field holds the modifiers, and as its second part what happened to the key. -/

/-- An unsigned number up to `greatest`. -/
def number? (greatest : Nat) (cs : List Char) : Option Nat :=
  (Number.uint64? cs).filter (· ≤ greatest)

def byteMax : Nat := 255
def wordMax : Nat := 0xFFFFFFFF

/-- The parts of a field. -/
def fieldParts (params : List Char) (index : Nat) : List (List Char) :=
  (((Text.splitAll ';' params)[index]?).map (Text.splitAll ':')).getD []

/-- The modifiers, if the sequence names them. -/
def modifiers? (params : List Char) : Option Nat :=
  (fieldParts params 1).head?.bind (number? byteMax)

/-- The key is pressed: neither held nor released. -/
def isPressed (params : List Char) : Bool :=
  match modifiers? params, (fieldParts params 1)[1]? with
  | some _, some kind => number? byteMax kind != some 2 && number? byteMax kind != some 3
  | _, _ => true

/-- An arrow key with parameters. Without a field for the modifiers, a digit stands for them. -/
def arrowWith (params : List Char) (last : Char) : Key :=
  if (modifiers? params).isSome then (if isPressed params then arrow last else .other)
  else if params.getLast?.any Char.isDigit then arrow last
  else .other

/-- The code of the arrow keys of the number pad. -/
def padUp : Nat := 57419
def padDown : Nat := 57420

/-- The character with a code. -/
def charOfCode? (code : Nat) : Option Char :=
  if code.isValidChar then some (Char.ofNat code) else none

/-- The key with a code. -/
def ofCode (code : Nat) : Key :=
  if code = padUp then .up
  else if code = padDown then .down
  else match charOfCode? code with
    | none => .other
    | some c => if c = '\x1b' then .escape else if c = '\t' ∨ c = '\r' then .other else .char c

/-- The modifiers count from one, and the first of them is the shift key. -/
def hasShift (params : List Char) : Bool :=
  (((modifiers? params).getD 0) - 1) % 2 == 1

/-- The codes of the two shift keys. -/
def isShiftKey (code : Nat) : Bool :=
  code == 57441 || code == 57447

/-- The character that a key gives with the shift key down, if the sequence names it. -/
def shifted? : List (Option Nat) → Option Key
  | some code :: _ => (charOfCode? code).map .char
  | _ => none

/-- A key given by its code, and by a second code that counts while a shift key is down. -/
def codedKey (params : List Char) : Key :=
  match (fieldParts params 0).map (number? wordMax) with
  | some code :: others =>
    if !isPressed params || (charOfCode? code).isNone then .other
    else if hasShift params || isShiftKey code then (shifted? others).getD (ofCode code)
    else ofCode code
  | _ => .other

/-- The key of a sequence with numbers, by its last character. -/
def numbered (params : List Char) (last : Char) : Key :=
  if last = 'u' then codedKey params else arrowWith params last

/-! ## Escape sequences -/

/-- What a sequence that has begun waits for. -/
inductive Awaited where
  | start
  /-- What follows an escape character. -/
  | introducer
  /-- The one character after `ESC O`. -/
  | final
  /-- The first character after `ESC [`. -/
  | parameter
  /-- The end of a sequence with numbers, of which `params` is there. -/
  | numberEnd (params : List Char)
  /-- The end of a report on the mouse. -/
  | mouseEnd
  /-- The end of a report on the terminal; `begun` if there is something in it. -/
  | reportEnd (begun : Bool)
  /-- A number of characters that do not count. -/
  | ignored (count : Nat)
  /-- The end of pasted text, of which the first characters are there. -/
  | pasteEnd (matched : Nat)
  deriving DecidableEq

/-- The sequence that ends pasted text. -/
def pasteMark : List Char :=
  ['\x1b', '[', '2', '0', '1', '~']

/-- The number of characters of the mark that are there after one more, of `matched` before. -/
def matchPaste (matched : Nat) (c : Char) : Nat :=
  if pasteMark[matched]? = some c then matched + 1 else if c = '\x1b' then 1 else 0

def afterParameter (c : Char) : Option Key × Awaited :=
  if c.isDigit then (none, .numberEnd [c])
  else if c = '[' then (none, .ignored 1)
  else if c = 'M' then (none, .ignored 3)
  else if c = '<' then (none, .mouseEnd)
  else if c = '?' then (none, .reportEnd false)
  else (some (arrow c), .start)

/-- Takes a character of a sequence with numbers. `ESC [ 200 ~` begins pasted text. -/
def afterNumber (params : List Char) (c : Char) : Option Key × Awaited :=
  if 64 ≤ c.toNat ∧ c.toNat ≤ 126 then
    if params = ['2', '0', '0'] ∧ c = '~' then (none, .pasteEnd 0)
    else (some (numbered params c), .start)
  else (none, .numberEnd (params ++ [c]))

/-- Takes a character: the key that it completes, if any, and what to wait for then. -/
def step (awaited : Awaited) (c : Char) : Option Key × Awaited :=
  match awaited with
  | .start => if c = '\x1b' then (none, .introducer) else (some (ofChar c), .start)
  | .introducer =>
    if c = '[' then (none, .parameter)
    else if c = 'O' then (none, .final)
    else if c = '\x1b' then (some .escape, .start)
    else (some (ofChar c), .start)
  | .final => (some (arrow c), .start)
  | .parameter => afterParameter c
  | .numberEnd params => afterNumber params c
  | .mouseEnd => if c = 'm' ∨ c = 'M' then (some .other, .start) else (none, .mouseEnd)
  | .reportEnd begun =>
    if c = 'c' ∨ (c = 'u' ∧ begun) then (some .other, .start) else (none, .reportEnd true)
  | .ignored count => if count ≤ 1 then (some .other, .start) else (none, .ignored (count - 1))
  | .pasteEnd matched =>
    if matchPaste matched c = pasteMark.length then (some .other, .start)
    else (none, .pasteEnd (matchPaste matched c))

def keysFrom (awaited : Awaited) : List Char → List Key
  | [] => if awaited = .introducer then [.escape] else []
  | c :: rest =>
    let (key?, next) := step awaited c
    key?.toList ++ keysFrom next rest

/-- The keys that bytes are typed with. A byte of a longer character is a key without a use. -/
def ofBytes (bytes : List UInt8) : List Key :=
  keysFrom .start (bytes.map fun b => Char.ofNat b.toNat)

/-- The keys that a text is typed with. -/
def ofText (text : String) : List Key :=
  ofBytes (Text.utf8 text)

end Key

end AlertConsole
