import AlertConsole.Viewer.Screen

/-!
# Painting a screen

The text that shows a screen on a terminal: every line at its place, and every span in its style.
-/

namespace AlertConsole.Screen

/-- A control sequence of the terminal. -/
def control (command : String) : String :=
  "\x1b[" ++ command

def colorCodes : Color → List String
  | .reset => []
  | .cyan => ["36"]
  | .green => ["32"]
  | .darkGray => ["90"]
  | .rgb r g b => ["38", "2", toString r, toString g, toString b]

def styleCodes (s : Style) : List String :=
  (if s.bold then ["1"] else []) ++ (if s.reversed then ["7"] else []) ++ colorCodes s.color

def paintSpan (s : Span) : String :=
  control (";".intercalate ("0" :: styleCodes s.style) ++ "m") ++ s.text

/-- A line at its place, counted from the top. -/
def paintLine (index : Nat) (line : ScreenLine) : String :=
  control s!"{index + 1};1H" ++ String.join (line.map paintSpan)

def paint (lines : List ScreenLine) : String :=
  String.join (lines.zipIdx.map fun (line, index) => paintLine index line) ++ control "0m"

def enterAlternate : String := control "?1049h" ++ control "2J"
def leaveAlternate : String := control "?1049l"

end AlertConsole.Screen
