import AlertConsole.Console.Arguments
import AlertConsole.Console.View
import AlertConsole.Console.Watch
import AlertConsole.Http.Wire
import AlertConsole.Path
import AlertConsole.Viewer.Paint
import Std.Async.DNS
import Std.Async.Signal
import Std.Async.TCP
import Std.Async.Timer

/-!
# The program

Answers the questions of the console on the machine that it runs on: connections, files, the
terminal and the clock. What the console does with the answers is decided elsewhere.
-/

namespace AlertConsole.Program

open Console (Activity CommandError Environment Format Invocation Watch)
open Std.Async (Async Selectable Selector)
open Std.Net (IPAddr SocketAddress)

/-! ## Network -/

def toBytes (bytes : List UInt8) : ByteArray :=
  ByteArray.mk bytes.toArray

def socketAddress (ip : IPAddr) (port : Nat) : SocketAddress :=
  match ip with
  | .v4 addr => .v4 ⟨addr, UInt16.ofNat port⟩
  | .v6 addr => .v6 ⟨addr, UInt16.ofNat port⟩

/-- Receives until the reply is complete or the connection is closed. -/
def receive (client : Std.Async.TCP.Socket.Client) : Async (Except Http.Fault Http.Reply) := do
  let mut received : List UInt8 := []
  repeat
    match ← client.recv? 65536 with
    | none =>
      match Http.Reply.ofBytes? received true with
      | some reply => return .ok reply
      | none => return .error .closed
    | some bytes =>
      received := received ++ bytes.toList
      if let some reply := Http.Reply.ofBytes? received false then return .ok reply
  return .error .closed

/-- The name of a host, without the brackets around a numeric one. -/
def hostName (u : Http.Url) : String :=
  String.ofList (u.host.toList.filter fun c => c != '[' && c != ']')

/-- Connects in plain text only. -/
def connectAndSend (m : Http.Message) : Async (Except Http.Fault Http.Reply) := do
  if m.url.scheme ≠ .http then return .error .refused
  let addresses ← Std.Async.DNS.getAddrInfo (hostName m.url) (toString m.url.port)
  match addresses[0]? with
  | none => return .error .refused
  | some ip =>
    let client ← Std.Async.TCP.Socket.Client.mk
    client.connect (socketAddress ip m.url.port)
    client.send (toBytes m.wireBytes)
    receive client

/-- Sends a request and waits for the reply as long as it says. -/
def exchange (m : Http.Message) : IO (Except Http.Fault Http.Reply) := do
  let work : IO (Except Http.Fault Http.Reply) := do
    try (connectAndSend m).block catch _ => return .error .refused
  let reply ← IO.asTask work .dedicated
  let deadline := (← IO.monoMsNow) + m.timeout
  while !(← IO.hasFinished reply) do
    if deadline ≤ (← IO.monoMsNow) then return .error .timedOut
    IO.sleep 1
  match reply.get with
  | .ok outcome => return outcome
  | .error _ => return .error .refused

/-! ## Files -/

def readFile (path : String) : IO FileContent := do
  try return .bytes (← IO.FS.readBinFile path).toList
  catch
    | .noFileOrDirectory .. => return .missing
    | _ => return .unreadable

def saveFile (path text : String) : IO Bool := do
  try
    let parent := Path.parent path
    if parent ≠ "" then IO.FS.createDirAll parent
    IO.FS.writeBinFile path text.toUTF8
    return true
  catch _ => return false

def removeFile (path : String) : IO Bool := do
  try
    IO.FS.removeFile path
    return true
  catch
    | .noFileOrDirectory .. => return true
    | _ => return false

/-! ## Terminal -/

def print (text : String) : IO Unit := do
  let stdout ← IO.getStdout
  stdout.putStr text
  stdout.flush

def readLine : IO (Option String) := do
  try return some (← (← IO.getStdin).getLine) catch _ => return none

/-- The time as the log writes it. -/
def timeText : IO String := do
  let now ← Std.Time.Timestamp.now
  let micros := now.toNanosecondsSinceUnixEpoch.toInt.toNat / 1000
  let seconds : Int := (micros / 1000000 : Nat)
  return (Calendar.Instant.mk seconds (micros % 1000000 * 1000)).utcText "Z"

def logLevel : IO (Option Level) := do
  return (← IO.getEnv "RUST_LOG").bind Level.ofName?

def report (event : Event) : IO Unit := do
  if let some least ← logLevel then
    if event.level.isShownFrom least then print (event.logLine (← timeText) ++ "\n")

/-! ## Dialogues -/

def answer : (q : Host.Question) → IO (Host.Answer q)
  | .exchange m => exchange m
  | .read path => readFile path
  | .save path text => saveFile path text
  | .remove path => removeFile path
  | .report event => report event
  | .print text => print text
  | .readLine => readLine

/-- Lets the console work on this machine. -/
def onMachine {α : Type} (work : Console α) : StateT SessionStore IO α :=
  fun store => (work store).interpret answer

/-! ## Activities -/

/-- Waits; false if the operator interrupts. -/
def waitUnlessInterrupted (interrupt : Std.Async.Signal.Waiter) (milliseconds : Nat) :
    IO Bool :=
  Async.block do
    let timer ← Selector.sleep (Std.Time.Millisecond.Offset.ofNat milliseconds)
    Selectable.one #[
      .case timer fun () => pure true,
      .case interrupt.selector fun () => pure false]

/-- Shows lists until the operator interrupts. -/
def watch (config : Config) (format : Format) : StateT SessionStore IO Unit := do
  let interrupt ← Std.Async.Signal.Waiter.mk .sigint false
  let mut w ← onMachine (Watch.start config)
  let begun := (← IO.monoMsNow) - w.feed.now
  repeat
    let due := w.feed.nextTick?.map (begun + ·)
    let now ← IO.monoMsNow
    let pause := if w.isPending (← get) then 0 else due.elim 1000 (· - now)
    if !(← waitUnlessInterrupted interrupt pause) then
      onMachine (w.interrupt config)
      return
    w ← onMachine (w.turn config format)

/-- The height of the terminal, as far as it is known. -/
def terminalHeight : IO Nat := do
  return ((← IO.getEnv "LINES").bind String.toNat?).getD 24

/-- Milliseconds for which the dashboard waits for a key. -/
def keyPause : Nat := 50

/-- Shows the dashboard until a key quits it or the input ends. -/
def view (config : Config) : StateT SessionStore IO Unit := do
  let height ← terminalHeight
  let stdin ← IO.getStdin
  print Screen.enterAlternate
  let mut d ← onMachine (withFeed config)
  let mut typed ← IO.asTask (stdin.read 64)
  let mut keys : List Key := []
  repeat
    if keys.isEmpty then
      IO.sleep (UInt32.ofNat keyPause)
      if ← IO.hasFinished typed then
        let bytes := (typed.get.toOption.getD ByteArray.empty).toList
        keys := if bytes.isEmpty then [.escape] else Key.ofBytes bytes
        typed ← IO.asTask (stdin.read 64)
      d ← onMachine (Console.View.pass config d keyPause)
    let key := keys.head?
    keys := keys.tail
    match ← onMachine (Console.View.turn config d key) with
    | none => break
    | some next =>
      let (lines, viewer) := Screen.draw config.timeOffset height next.viewer
      print (Screen.paint lines)
      d := { next with viewer }
  onMachine (Console.View.finish config d)
  print Screen.leaveAlternate
where
  withFeed (config : Config) : Console Dashboard :=
    Console.withFeed config (Dashboard.start config.pollInterval)

/-! ## Entry -/

def usage : String :=
  "Operator console for the bangarang alerting server

Usage: bangctl [--url <URL>] [--session-file <FILE>] [--interval-ms <MS>] [--timeout-ms <MS>] <COMMAND>

Commands:
  login --user <USER> --pass <PASS>
  logout
  status
  incidents [--format <human|json|ndjson>]
  watch [--format <human|json|ndjson>]
  resolve <KEY>
  escalations list
  escalations delete <NAME>
  escalations create <NAME> --step <STEP>...
  policies list
  policies delete <NAME>
  policies create <NAME> [--match <PAIR>]... [--not-match <PAIR>]... [--crit <PAIR>]... [--warn <PAIR>]...
  versions list
  versions revert <HASH> [--yes]
  view
"

/-- What the surroundings say. -/
def environment : IO Environment := do
  return ⟨← IO.getEnv "BANGARANG_URL", ← IO.getEnv "BANGARANG_SESSION_FILE",
    ← IO.getEnv "BANGARANG_PASSWORD"⟩

def runActivity (config : Config) :
    Activity → StateT SessionStore IO (Except CommandError Unit)
  | .run command => onMachine (Console.perform config command)
  | .watch format => Except.ok <$> watch config format
  | .view => Except.ok <$> view config

/-- Runs the console, and gives its exit code. -/
def run (args : List String) : IO UInt32 := do
  match Invocation.ofArguments (← environment) args with
  | .error .help =>
    print usage
    return 0
  | .error .usage =>
    IO.eprint usage
    return 2
  | .ok ⟨config, activity⟩ =>
    let store ← (Console.openStore config).interpret answer
    let (outcome, _) ← (runActivity config activity).run store
    match outcome with
    | .ok () => return 0
    | .error cause =>
      IO.eprintln s!"Error: {cause.message}"
      return 1

end AlertConsole.Program

def main (args : List String) : IO UInt32 :=
  AlertConsole.Program.run args
