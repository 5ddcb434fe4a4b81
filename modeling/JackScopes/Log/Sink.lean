import JackScopes.Log.Event

/-!
# Sinks

Where the log is written. A sink takes nothing until a threshold is installed;
the first threshold stays, and an attempt to install another one is only noted.
-/

namespace JackScopes

structure Sink where
  threshold : Option Severity := none
  deriving DecidableEq

namespace Sink

def install (sink : Sink) (threshold : Severity) : Sink :=
  ⟨sink.threshold.or (some threshold)⟩

def notice (sink : Sink) : String :=
  if sink.threshold.isSome then "A global log subscriber is already installed.\n" else ""

def admits (sink : Sink) (event : Event) : Bool :=
  sink.threshold.any (·.admits event.severity)

def write (sink : Sink) (events : List Event) : String :=
  String.join ((events.filter sink.admits).map Event.line)

def installAll (sink : Sink) (thresholds : List Severity) : Sink :=
  thresholds.foldl install sink

def notices (sink : Sink) : List Severity → String
  | [] => ""
  | threshold :: rest => sink.notice ++ (sink.install threshold).notices rest

@[simp] theorem install_of_some (threshold other : Severity) :
    install ⟨some threshold⟩ other = ⟨some threshold⟩ := rfl

end Sink

end JackScopes
