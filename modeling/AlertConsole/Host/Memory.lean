import AlertConsole.Disk

/-!
# A host in memory

A `MemoryHost` answers the questions of a dialogue without a machine around it: files are on a
`Disk`, one server is scripted, and what is printed is kept. It can rehearse all that a console
does.
-/

namespace AlertConsole

/-! ## Scripts -/

/-- What a server does with a request. -/
inductive Conduct where
  | reply (reply : Http.Reply)
  /-- Closes the connection. -/
  | drop
  /-- Does not answer while anybody waits. -/
  | hang

/-- What happens when a request arrives. -/
structure Turn where
  conduct : Conduct
  /-- A file that changes at that moment, and what it then holds. -/
  saves : Option (String × String)

/-- A reply of success without a body. -/
def Turn.plain : Turn :=
  ⟨.reply ⟨200, ""⟩, none⟩

/-! ## Hosts -/

structure MemoryHost where
  disk : Disk
  /-- The working directory, where relative paths start. -/
  directory : Place
  /-- The one address that does not refuse connections, which are not encrypted. -/
  server : String × Nat
  /-- What happens to requests for a method and a target; the last turn repeats. -/
  routes : KeyMap (List Turn)
  /-- What happens to any other request. -/
  otherwise : Turn
  /-- The requests that reached the server, the latest last. -/
  received : List Http.Message
  input : List UInt8
  /-- What was printed. -/
  output : String
  /-- The events that are printed, and the text that stands for their time. -/
  log : Option Level × String

namespace MemoryHost

/-! ## Files -/

/-- Goes on with a changed disk; whether the change succeeded comes along. -/
def onDisk (h : MemoryHost) : Bool × Disk → Bool × MemoryHost
  | (succeeded, disk) => (succeeded, { h with disk })

def readFile (h : MemoryHost) (path : String) : FileContent :=
  h.disk.read h.directory path

def saveFile (h : MemoryHost) (path text : String) : Bool × MemoryHost :=
  h.onDisk (h.disk.save h.directory path (Text.utf8 text))

def removeFile (h : MemoryHost) (path : String) : Bool × MemoryHost :=
  h.onDisk (h.disk.remove h.directory path)

/-- The files below the working directory. -/
def files (h : MemoryHost) : List (String × List UInt8) :=
  h.disk.files h.directory

/-! ## Exchanges -/

/-- The turn for a request, and the turns for those after it. -/
def takeTurn (h : MemoryHost) (m : Http.Message) : Turn × MemoryHost :=
  let key := m.method.name ++ " " ++ m.url.target
  match h.routes.get? key with
  | some [turn] => (turn, h)
  | some (turn :: rest) => (turn, { h with routes := h.routes.insert key rest })
  | _ => (h.otherwise, h)

/-- Replies with these statuses are sent without a body. -/
def isSentEmpty (status : Nat) : Bool :=
  Http.isBodiless status || status == 205

/-- What the other side makes of the conduct. An interim reply is followed by no other. -/
def outcome : Conduct → Except Http.Fault Http.Reply
  | .reply r =>
    if Http.isInterim r.status || !Http.isStatus r.status then .error .closed
    else .ok (if isSentEmpty r.status then { r with body := "" } else r)
  | .drop => .error .closed
  | .hang => .error .timedOut

def exchange (h : MemoryHost) (m : Http.Message) :
    Except Http.Fault Http.Reply × MemoryHost :=
  if m.url.scheme ≠ .http ∨ (m.url.host, m.url.port) ≠ h.server then (.error .refused, h)
  else
    let (turn, h) := { h with received := h.received ++ [m] }.takeTurn m
    let h := match turn.saves with
      | none => h
      | some (path, text) => (h.saveFile path text).2
    (outcome turn.conduct, h)

/-! ## Terminal -/

def print (h : MemoryHost) (text : String) : MemoryHost :=
  { h with output := h.output ++ text }

/-- Prints an event, if the log shows it. -/
def report (h : MemoryHost) (event : Event) : MemoryHost :=
  match h.log with
  | (none, _) => h
  | (some least, time) =>
    if event.level.isShownFrom least then h.print (event.logLine time ++ "\n") else h

/-- The input up to and with the next line feed, and the rest. -/
def takeLine : List UInt8 → List UInt8 × List UInt8
  | [] => ([], [])
  | b :: rest =>
    if b = 0x0A then ([b], rest)
    else
      let (line, rest) := takeLine rest
      (b :: line, rest)

def readLine (h : MemoryHost) : Option String × MemoryHost :=
  let (line, rest) := takeLine h.input
  (Text.ofUtf8? line, { h with input := rest })

/-! ## Answers -/

def answer : (q : Host.Question) → MemoryHost → Host.Answer q × MemoryHost
  | .exchange m, h => h.exchange m
  | .read path, h => (h.readFile path, h)
  | .save path text, h => h.saveFile path text
  | .remove path, h => h.removeFile path
  | .report event, h => ((), h.report event)
  | .print text, h => ((), h.print text)
  | .readLine, h => h.readLine

/-- Runs a dialogue on this host. -/
def run {α : Type} (h : MemoryHost) (d : Dialogue Host α) : α × MemoryHost :=
  d.interpret (m := StateM MemoryHost) answer h

end MemoryHost

end AlertConsole
