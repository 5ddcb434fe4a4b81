import JackScopes.Fault

/-!
# Complaints about a trace

What can be wrong with a line of a trace, and why a trace as a whole is
refused: for a malformed line, or for a name that no scope declares.
-/

namespace JackScopes.Trace

inductive Complaint
  | noClassName
  | repeatedClass (name : String)
  | outsideClass (word : String)
  | noSubroutineName
  | noName
  | unknownKind (word : String)
  | noType (word : String)
  | malformedNames (names : String)
  deriving DecidableEq

def Complaint.text : Complaint → String
  | noClassName => "expected a class name"
  | repeatedClass name => "class `" ++ name ++ "` declared twice"
  | outsideClass word => "`" ++ word ++ "` outside of any class"
  | noSubroutineName => "expected a subroutine name"
  | noName => "expected a name"
  | unknownKind word => (Fault.unknownKind word).text
  | noType word => "expected a type after `" ++ word ++ "`"
  | malformedNames names => "malformed name list: `" ++ names ++ "`"

inductive Refusal
  | malformed (complaint : Complaint)
  | unknownName (name : String)
  deriving DecidableEq

/-- A refusal at a line of the trace, as a fault. Only complaints tell the line. -/
def Refusal.fault (line : Nat) : Refusal → Fault
  | malformed complaint => .script line complaint.text
  | unknownName name => .unknownName name

end JackScopes.Trace
