import AlertConsole.Dialogue
import AlertConsole.Event
import AlertConsole.Http.Message

/-!
# The machine around the console

Work that needs the network, files or the terminal is a dialogue over `Host`. Every question is
answered, failures included, so a dialogue says what happens in each case.
-/

namespace AlertConsole

/-- What reading a file gives. -/
inductive FileContent where
  | missing
  | unreadable
  | bytes (content : List UInt8)
  deriving DecidableEq

namespace Host

inductive Question where
  | exchange (message : Http.Message)
  | read (path : String)
  /-- Writes a file, after making the directories that it is to be in. -/
  | save (path text : String)
  /-- Removes a file. One that is missing counts as removed. -/
  | remove (path : String)
  | report (event : Event)
  | print (text : String)
  /-- The next line of the input, unless it is no text. -/
  | readLine

abbrev Answer : Question → Type
  | .exchange _ => Except Http.Fault Http.Reply
  | .read _ => FileContent
  | .save _ _ => Bool
  | .remove _ => Bool
  | .report _ => Unit
  | .print _ => Unit
  | .readLine => Option String

end Host

abbrev Host : Interface := ⟨Host.Question, Host.Answer⟩

namespace Host

def exchange (message : Http.Message) : Dialogue Host (Except Http.Fault Http.Reply) :=
  .question (I := Host) (.exchange message)

def read (path : String) : Dialogue Host FileContent :=
  .question (I := Host) (.read path)

def save (path text : String) : Dialogue Host Bool :=
  .question (I := Host) (.save path text)

def remove (path : String) : Dialogue Host Bool :=
  .question (I := Host) (.remove path)

def report (event : Event) : Dialogue Host Unit :=
  .question (I := Host) (.report event)

def print (text : String) : Dialogue Host Unit :=
  .question (I := Host) (.print text)

def readLine : Dialogue Host (Option String) :=
  .question (I := Host) .readLine

end Host

end AlertConsole
