import AlertConsole.Viewer.Basic
import AlertConsole.Viewer.Color

/-!
# Drawing the viewer

A screen is a list of lines of the same width, each made up of spans of one style. There are two
boxes: `Status` with a summary and a message, and below it `Active` with the table of incidents, of
which as many rows are in sight as fit.
-/

namespace AlertConsole

structure Style where
  color : Color
  bold : Bool
  reversed : Bool
  deriving DecidableEq

def Style.plain : Style :=
  ⟨.reset, false, false⟩

structure Span where
  text : String
  style : Style

abbrev ScreenLine : Type := List Span

namespace Screen

/-! ## Text of a width -/

def width : Nat := 120

/-- Between the borders of a box. -/
def innerWidth : Nat := width - 2

/-- Exactly `n` characters: cut, or followed by spaces. Control characters count too. -/
def fit (n : Nat) (cs : List Char) : List Char :=
  let shown := cs.take n
  shown ++ List.replicate (n - shown.length) ' '

/-- Up to the first line break, which is a line feed or a carriage return and a line feed. -/
def firstLine : List Char → List Char
  | [] => []
  | '\n' :: _ => []
  | '\r' :: '\n' :: _ => []
  | c :: rest => c :: firstLine rest

/-- All lines as one, without the line breaks. -/
def joinedLines : List Char → List Char
  | [] => []
  | '\n' :: rest => joinedLines rest
  | '\r' :: '\n' :: rest => joinedLines rest
  | c :: rest => c :: joinedLines rest

/-- The text of a cell of the table, which is one line. -/
def cell (n : Nat) (text : String) (style : Style) : Span :=
  ⟨String.ofList (fit n (firstLine text.toList)), style⟩

def gap (style : Style) : Span :=
  ⟨" ", style⟩

/-! ## Boxes -/

def border (left : Char) (title : String) (right : Char) : ScreenLine :=
  let rule := List.replicate (innerWidth - title.length) '─'
  [⟨String.ofList (left :: title.toList ++ rule ++ [right]), .plain⟩]

def inside (line : ScreenLine) : ScreenLine :=
  ⟨"│", .plain⟩ :: line ++ [⟨"│", .plain⟩]

/-- A box of a height. The content is what fits between its borders. -/
def box (title : String) (height : Nat) (content : List ScreenLine) : List ScreenLine :=
  match height with
  | 0 => []
  | 1 => [border '┌' title '┐']
  | inner + 2 =>
    let blank := [cell innerWidth "" .plain]
    let shown := content.take inner
    border '┌' title '┐' ::
      (shown ++ List.replicate (inner - shown.length) blank).map inside ++
      [border '└' "" '┘']

/-! ## Status -/

def statusHeight : Nat := 4

def countStatus (incidents : List Entry) (s : Status) : Nat :=
  incidents.countP fun e => e.incident.status == s

def summary (v : Viewer) : String :=
  let critical := countStatus v.incidents .critical
  let warning := countStatus v.incidents .warning
  let session := if v.loggedIn then "logged in" else "anonymous"
  s!"critical={critical} warning={warning} total={v.incidents.length} " ++
    s!"polling={v.polling} session={session}"

def name : String := "Bangarang Incidents  "

def keyHelp : String := "j/k move  r resolve  p pause/resume  q quit"

def statusLines (v : Viewer) : List ScreenLine :=
  let message := joinedLines (v.message.getD keyHelp).toList
  [[⟨name, ⟨.cyan, true, false⟩⟩, cell (innerWidth - name.length) (summary v) .plain],
    [⟨String.ofList (fit innerWidth message), .plain⟩]]

/-! ## The table -/

def statusWidth : Nat := 9
def keyWidth : Nat := 34
def descriptionWidth : Nat := innerWidth - statusWidth - keyWidth - 2

def row (status description key : String) (first second third between : Style) : ScreenLine :=
  [cell statusWidth status first, gap between, cell descriptionWidth description second,
    gap between, cell keyWidth key third]

def header : ScreenLine :=
  let style := { Style.plain with bold := true }
  row "STATUS" "DESCRIPTION" "KEY" style style style style

/-- The row of an incident, with times at an offset east of UTC. -/
def entryRow (offset : Int) (e : Entry) (selected : Bool) : ScreenLine :=
  let style := { Style.plain with reversed := selected }
  row e.incident.status.label (e.incident.describe offset) e.key
    { style with color := .ofStatus e.incident.status } style { style with color := .darkGray }
    style

/-! ## Scrolling -/

/-- The first row in sight and the row after the last, of `count` rows in a window of `height`: as
before, but for what it takes to show the selected row. -/
def window (count height offset selected : Nat) : Nat × Nat :=
  let start := min offset (count - 1)
  let stop := min count (start + height)
  let (start, stop) :=
    if stop ≤ selected then (max start (selected + 1 - height), selected + 1) else (start, stop)
  if selected < start then (selected, min stop (selected + height)) else (start, stop)

/-- The rows in sight in a window of a height, and the first of them. -/
def rows (timeOffset : Int) (v : Viewer) (height : Nat) : List ScreenLine × Nat :=
  if v.incidents = [] then ([], v.offset)
  else
    let selected := min (v.selected.getD 0) (v.incidents.length - 1)
    let (start, stop) := window v.incidents.length height v.offset selected
    let shown := (v.incidents.zipIdx.take stop).drop start
    (shown.map fun (e, i) => entryRow timeOffset e (v.selected == some i), start)

/-! ## Screens -/

/-- The screen of a height, and the viewer as it was drawn. -/
def draw (timeOffset : Int) (height : Nat) (v : Viewer) : List ScreenLine × Viewer :=
  let status := box "Status" (min statusHeight height) (statusLines v)
  let tableHeight := height - statusHeight
  let (shown, offset) :=
    if tableHeight < 3 then ([], v.offset) else rows timeOffset v (tableHeight - 3)
  (status ++ box "Active" tableHeight (header :: shown), { v with offset })

end Screen

end AlertConsole
