import JackScopes.Kind
import JackScopes.Log.Severity

/-!
# Events

Everything that can be logged, with the severity, the part of the program that
speaks, and the wording of each.
-/

namespace JackScopes

inductive Event
  | defined (name : String) (kind : Kind) (index : Nat) (type : String)
  /-- The entry to be added bears a name its kind already has. -/
  | redefined (name : String) (kind : Kind) (index : Nat)
  /-- A declaration opened a subroutine scope where there was none. -/
  | scopeOpened (kind : Kind)
  | scopeDiscarded (args vars : Nat)
  | classOpened (name : String)
  | replayed (resolutions classes : Nat)
  | configured (settings : String)
  | replaying (path : String)
  | tableLeft (name : String) (table : String)
  deriving DecidableEq

namespace Event

def severity : Event → Severity
  | defined .. => .trace
  | redefined .. => .debug
  | scopeOpened _ => .warn
  | scopeDiscarded .. => .debug
  | classOpened _ => .debug
  | replayed .. => .info
  | configured _ => .debug
  | replaying _ => .info
  | tableLeft .. => .debug

def target : Event → String
  | defined .. | redefined .. | scopeOpened _ | scopeDiscarded .. => "jack_symtab::symtab"
  | classOpened _ | replayed .. => "jack_symtab::replay"
  | configured _ | replaying _ | tableLeft .. => "jack_symtab"

def message : Event → String
  | defined name kind index type =>
    "Defined `" ++ name ++ "` as " ++ kind.name ++ " " ++ toString index ++ " of type `" ++
      type ++ "`."
  | redefined name kind index =>
    "`" ++ name ++ "` redefined as " ++ kind.name ++ " " ++ toString index ++
      "; lookups keep resolving the first definition."
  | scopeOpened kind =>
    kind.name ++ " defined outside of any subroutine; opening a subroutine scope."
  | scopeDiscarded args vars =>
    "Discarding subroutine scope (" ++ toString args ++ " args, " ++ toString vars ++ " vars)."
  | classOpened name => "Compiling class `" ++ name ++ "`."
  | replayed resolutions classes =>
    "Replayed " ++ toString resolutions ++ " resolutions across " ++ toString classes ++
      " classes."
  | configured settings => "Configuration: " ++ settings
  | replaying path => "Replaying trace: " ++ path
  | tableLeft name table => "Final table for `" ++ name ++ "`:\n" ++ table

/-- A text at the right end of five columns. -/
def alignRight (s : String) : String :=
  String.ofList (List.replicate (5 - s.length) ' ') ++ s

/-- An event as a line of the log, without the time since the start (hours, minutes and
seconds) that is printed in front of each line. -/
def line (event : Event) : String :=
  alignRight event.severity.name ++ " " ++ event.target ++ ": " ++ event.message ++ "\n"

end Event

end JackScopes
