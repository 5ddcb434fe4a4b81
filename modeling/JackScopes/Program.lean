import JackScopes.Directory
import JackScopes.Log.Sink
import JackScopes.Settings.Reading
import JackScopes.Settings.Text
import JackScopes.Trace.Replay

/-!
# The program

The first argument is the path of a trace, the second the path of a settings
text. The stages are: the arguments, the settings, their log threshold, the
trace, its replay. The first stage that fails ends the program; nothing is
logged before the threshold is known.
-/

namespace JackScopes.Program

abbrev Files := String → Except ReadFault String

structure Outcome where
  exitCode : Nat
  stdout : String
  stderr : String
  deriving DecidableEq

structure Task where
  tracePath : String
  settings : Settings
  threshold : Severity
  deriving DecidableEq

def usage : Fault :=
  .failure "usage: jack-symtab <trace> [config.json]"

def readText (files : Files) (path : String) : Except Fault String :=
  match files path with
  | .ok text => .ok text
  | .error fault => .error (.unreadable fault.text)

/-- The settings at a path; without one, the defaults. -/
def readSettings (files : Files) : Option String → Except Fault Settings
  | none => .ok {}
  | some path => do Settings.ofString (← readText files path)

def prepare (files : Files) : List String → Except Fault Task
  | [] => .error usage
  | tracePath :: rest => do
    let settings ← readSettings files rest.head?
    return { tracePath, settings, threshold := ← settings.severity }

def perform (files : Files) (task : Task) : Logged Fault Trace.Report := do
  Logged.emit [.configured task.settings.text, .replaying task.tracePath]
  let text ← Logged.ofExcept (readText files task.tracePath)
  let report ← Trace.replay task.settings.unknownNames text
  Logged.emit (report.classes.map fun (name, table) => .tableLeft name table.text)
  return report

def run (files : Files) (arguments : List String) : Outcome :=
  match prepare files arguments with
  | .error fault => ⟨1, "", fault.text ++ "\n"⟩
  | .ok task =>
    let work := perform files task
    let log := (Sink.install {} task.threshold).write work.events
    match work.outcome with
    | .ok report => ⟨0, report.text, log⟩
    | .error fault => ⟨1, "", log ++ fault.text ++ "\n"⟩

end JackScopes.Program
