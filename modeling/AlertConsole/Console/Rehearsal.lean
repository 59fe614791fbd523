import AlertConsole.Console.Arguments
import AlertConsole.Console.View
import AlertConsole.Console.Watch
import AlertConsole.Host.Memory

/-!
# Rehearsing the console

`rehearse` runs the console on a host in memory, from its arguments to its end. The dashboard gets
its keys beforehand, and watching is interrupted once it has shown a number of lines.
-/

namespace AlertConsole.Console

/-- How a run of the console ends. -/
inductive Ending where
  | stopped (stop : Stop)
  | finished (outcome : Except CommandError Unit)

def Ending.exitCode : Ending → Nat
  | stopped .help => 0
  | stopped .usage => 2
  | finished (.ok ()) => 0
  | finished (.error _) => 1

/-- What the operator does while the console runs. -/
structure Operator where
  keys : List Key
  /-- The lines after which watching is interrupted. -/
  patience : Nat

namespace Rehearsal

def lineCount (text : String) : Nat :=
  text.toList.countP (· == '\n')

/-- Watches until enough lines are shown, for at most a number of turns. -/
def watchOn (config : Config) (format : Format) (patience : Nat) :
    Nat → Watch → SessionStore → MemoryHost → MemoryHost
  | 0, _, _, h => h
  | turns + 1, w, store, h =>
    if patience ≤ lineCount h.output then h
    else
      let ((w, store), h) := h.run (w.turn config format store)
      watchOn config format patience turns w store h

/-- The turns after which watching is given up. -/
def maxTurns : Nat := 20000

def watch (config : Config) (format : Format) (patience : Nat) (h : MemoryHost) : MemoryHost :=
  let (store, h) := h.run (openStore config)
  let ((w, store), h) := h.run (Watch.start config store)
  watchOn config format patience maxTurns w store h

def act (operator : Operator) (config : Config) (activity : Activity) (h : MemoryHost) :
    Except CommandError Unit × MemoryHost :=
  match activity with
  | .run command => h.run (withStore config (perform config command))
  | .watch format => (.ok (), watch config format operator.patience h)
  | .view => (.ok (), (h.run (withStore config (View.run config operator.keys))).2)

end Rehearsal

/-- Runs the console on a host in memory. -/
def rehearse (env : Environment) (args : List String) (operator : Operator) (h : MemoryHost) :
    Ending × MemoryHost :=
  match Invocation.ofArguments env args with
  | .error stop => (.stopped stop, h)
  | .ok invocation =>
    let (outcome, h) := Rehearsal.act operator invocation.config invocation.activity h
    (.finished outcome, h)

end AlertConsole.Console
