/-!
# Faults

What can go wrong, as the program reports it: a text, and for a fault that
another one caused, the chain down to the first cause.
-/

namespace JackScopes

inductive Fault
  | unknownKind (word : String)
  | unknownName (name : String)
  /-- A malformed line of a trace; lines count from one. -/
  | script (line : Nat) (complaint : String)
  /-- A failure without a cause of its own. -/
  | failure (context : String)
  | failureFrom (context : String) (source : Fault)
  /-- A cause from outside, known by its text alone. -/
  | message (text : String)
  deriving DecidableEq

namespace Fault

def source? : Fault → Option Fault
  | failureFrom _ source => some source
  | _ => none

def text : Fault → String
  | unknownKind word => "unknown symbol kind: `" ++ word ++ "`"
  | unknownName name => "name is not defined in any scope: `" ++ name ++ "`"
  | script line complaint => "line " ++ toString line ++ ": " ++ complaint
  | failure context => context
  | failureFrom context source => context ++ ": " ++ source.text
  | message text => text

/-- A fault and all its causes, outermost first. -/
def chain : Fault → List Fault
  | failureFrom context source => failureFrom context source :: source.chain
  | fault => [fault]

def unreadable (reason : String) : Fault :=
  failureFrom "file I/O failure" (message reason)

def malformedSettings (reason : String) : Fault :=
  failureFrom "malformed configuration" (message reason)

@[simp] theorem text_failureFrom (context : String) (source : Fault) :
    (failureFrom context source).text = context ++ ": " ++ source.text := rfl

theorem chain_eq (fault : Fault) :
    fault.chain = fault :: (fault.source?.map chain).getD [] := by
  cases fault <;> simp [chain, source?]

end Fault

end JackScopes
