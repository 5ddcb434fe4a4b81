import JackScopes.Table

/-!
# Reports

The answers to the names that a trace resolves, and the tables its classes are
left with.
-/

namespace JackScopes.Trace

/-- Where code generation finds a name, as seen from one place in a trace. -/
structure Resolution where
  className : String
  subroutine : Option String
  name : String
  kind : Kind
  /-- No storage if no scope declares the name. -/
  storage : Option Storage
  type : Option String
  deriving DecidableEq

namespace Resolution

def place (resolution : Resolution) : String :=
  match resolution.subroutine with
  | some subroutine => resolution.className ++ "." ++ subroutine
  | none => resolution.className

def meaning (resolution : Resolution) : String :=
  match resolution.storage, resolution.type with
  | some storage, some type => storage.text ++ " (" ++ type ++ ")"
  | some storage, none => storage.text
  | none, _ => resolution.kind.name ++ " (undefined)"

def text (resolution : Resolution) : String :=
  resolution.place ++ ": " ++ resolution.name ++ " -> " ++ resolution.meaning

end Resolution

structure Report where
  /-- The classes in the order of the trace, each with its last table. -/
  classes : List (String × Table)
  resolutions : List Resolution

def Report.text (report : Report) : String :=
  String.join (report.resolutions.map fun resolution => resolution.text ++ "\n")

end JackScopes.Trace
