import AlertConsole.Http.Message
import AlertConsole.Number.Digits
import AlertConsole.Text.Utf8

/-!
# Messages on the wire

`Message.wireBytes` writes a request of HTTP/1.1 that asks for the connection to be closed after the
reply. `Reply.ofBytes?` reads a reply from the bytes received so far, once it is complete.
-/

namespace AlertConsole.Http

/-! ## Requests -/

def lineEnd : String := "\r\n"

def Url.hostField (u : Url) : String :=
  if u.port = u.scheme.port then u.host else s!"{u.host}:{u.port}"

/-- The length of the body, for a request that has one or could have one. -/
def Message.lengthField (m : Message) : List (String × String) :=
  match m.body with
  | some body => [("content-length", toString body.utf8ByteSize)]
  | none => if m.method = .post then [("content-length", "0")] else []

def Message.wireText (m : Message) : String :=
  let fields := ("host", m.url.hostField) :: m.headers ++ m.lengthField ++
    [("connection", "close")]
  s!"{m.method.name} {m.url.target} HTTP/1.1{lineEnd}" ++
    String.join (fields.map fun (name, value) => s!"{name}: {value}{lineEnd}") ++
    lineEnd ++ m.body.getD ""

def Message.wireBytes (m : Message) : List UInt8 :=
  Text.utf8 m.wireText

/-! ## Heads of replies -/

structure Head where
  status : Nat
  fields : List (String × String)

/-- What stands before the first empty line, and what follows it. -/
def splitHead : List UInt8 → Option (List UInt8 × List UInt8)
  | 0x0D :: 0x0A :: 0x0D :: 0x0A :: rest => some ([], rest)
  | [] => none
  | b :: rest => (splitHead rest).map fun (head, body) => (b :: head, body)

def asciiChars (bytes : List UInt8) : List Char :=
  bytes.map fun b => Char.ofNat b.toNat

def trimText (cs : List Char) : String :=
  let isGap (c : Char) := c == ' ' || c == '\t' || c == '\r'
  String.ofList ((cs.dropWhile isGap).reverse.dropWhile isGap).reverse

def fieldOfLine? (line : List Char) : Option (String × String) :=
  (Text.splitOnce ':' line).map fun (name, value) => ((trimText name).toLower, trimText value)

/-- The status in a first line such as `HTTP/1.1 200 OK`. -/
def statusOfLine? (line : List Char) : Option Nat :=
  match (Text.splitAll ' ' line)[1]? with
  | none => none
  | some digits =>
    let digits := digits.filter (· != '\r')
    if digits.length = 3 ∧ digits.all Char.isDigit then some (Number.digitsValue digits) else none

def Head.ofBytes? (bytes : List UInt8) : Option Head :=
  match Text.splitAll '\n' (asciiChars bytes) with
  | [] => none
  | first :: rest =>
    (statusOfLine? first).map fun status => ⟨status, rest.filterMap fieldOfLine?⟩

/-! ## Bodies -/

def hexLength (line : List Char) : Nat :=
  (line.map Text.hexValue?).foldl (fun n digit? => digit?.elim n (16 * n + ·)) 0

/-- The line at the start of `bytes` and what follows it. -/
def takeLine : List UInt8 → Option (List UInt8 × List UInt8)
  | [] => none
  | b :: rest =>
    if b = 0x0A then some ([], rest)
    else (takeLine rest).map fun (line, rest) => (b :: line, rest)

/-- The chunks of a body put together, once the last one is there. Each takes more than one byte, so
the number of bytes bounds that of the chunks. -/
def joinChunks : Nat → List UInt8 → Option (List UInt8)
  | 0, _ => none
  | fuel + 1, bytes =>
    match takeLine bytes with
    | none => none
    | some (line, rest) =>
      let size := hexLength ((asciiChars line).takeWhile (· != ';'))
      if size = 0 then some []
      else if rest.length < size + 2 then none
      else (joinChunks fuel (rest.drop (size + 2))).map (rest.take size ++ ·)

/-- The bytes of the body, if they are complete; `closed` says that no more will come. -/
def bodyBytes? (head : Head) (bytes : List UInt8) (closed : Bool) : Option (List UInt8) :=
  if isBodiless head.status then some []
  else if (head.fields.lookup "transfer-encoding").map String.toLower = some "chunked" then
    joinChunks (bytes.length + 1) bytes
  else match (head.fields.lookup "content-length").bind String.toNat? with
    | some n => if n ≤ bytes.length then some (bytes.take n) else none
    | none => if closed then some bytes else none

/-- The reply that the bytes received so far make up, if it is complete. Interim replies are passed
over; each takes bytes, so their number bounds that of the replies. -/
def replyFrom? (closed : Bool) : Nat → List UInt8 → Option Reply
  | 0, _ => none
  | fuel + 1, bytes => do
    let (headBytes, rest) ← splitHead bytes
    let head ← Head.ofBytes? headBytes
    if isInterim head.status then replyFrom? closed fuel rest
    else
      let body ← bodyBytes? head rest closed
      pure ⟨head.status, Text.ofUtf8Lossy body⟩

def Reply.ofBytes? (bytes : List UInt8) (closed : Bool) : Option Reply :=
  replyFrom? closed (bytes.length + 1) bytes

end AlertConsole.Http
