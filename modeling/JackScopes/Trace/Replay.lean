import JackScopes.Log.Logged
import JackScopes.Settings.Basic
import JackScopes.Trace.Directive
import JackScopes.Trace.Report

/-!
# Replay

A trace is followed line by line. Each class has a table of its own; each
`subroutine` starts the table's subroutine scope anew; each declared name is
defined; each `resolve` is answered from the table as it then stands. The first
line that cannot be followed ends the replay.
-/

namespace JackScopes.Trace

structure OpenClass where
  name : String
  table : Table := {}
  subroutine : Option String := none

structure Progress where
  /-- The classes before the one at hand. -/
  closed : Array (String × Table) := #[]
  current : Option OpenClass := none
  resolutions : Array Resolution := #[]

def OpenClass.resolution (openClass : OpenClass) (name : String) : Resolution :=
  let entry := openClass.table.resolve name
  { className := openClass.name
    subroutine := openClass.subroutine
    name
    kind := openClass.table.kindOf name
    storage := entry.map Entry.storage
    type := entry.map Entry.type }

/-- Defines names up to the first that is no identifier. -/
def defineNames (kind : Kind) (type : String) (complaint : Complaint) :
    Table → List (List Char) → Logged Refusal Table
  | table, [] => pure table
  | table, piece :: pieces =>
    if Text.isIdentifier piece then do
      let name := String.ofList piece
      Logged.emit (table.defineEvents kind name type)
      defineNames kind type complaint (table.define kind name type) pieces
    else .fail (.malformed complaint)

namespace Progress

def classes (progress : Progress) : Array (String × Table) :=
  match progress.current with
  | some openClass => progress.closed.push (openClass.name, openClass.table)
  | none => progress.closed

def hasClass (progress : Progress) (name : String) : Bool :=
  progress.classes.any (·.1 = name)

def beginClass (progress : Progress) (name : String) : Progress :=
  { progress with closed := progress.classes, current := some { name } }

def openClass (progress : Progress) (statement : Statement) : Logged Refusal Progress := do
  let name ← (Logged.ofExcept statement.className).mapError .malformed
  if progress.hasClass name then .fail (.malformed (.repeatedClass name))
  else
    Logged.emit [.classOpened name]
    pure (progress.beginClass name)

def obey (policy : UnknownNames) (progress : Progress) (openClass : OpenClass) :
    Directive → Logged Refusal Progress
  | .startSubroutine name => do
    Logged.emit openClass.table.startEvents
    let table := openClass.table.startSubroutine
    pure { progress with current := some { openClass with table, subroutine := some name } }
  | .resolve name =>
    if policy = .reject && (openClass.table.resolve name).isNone then .fail (.unknownName name)
    else pure { progress with resolutions := progress.resolutions.push (openClass.resolution name) }
  | .declare kind type names => do
    let table ← defineNames kind type (.malformedNames (String.ofList names)) openClass.table
      (namePieces names)
    pure { progress with current := some { openClass with table } }

def perform (policy : UnknownNames) (progress : Progress) (statement : Statement) :
    Logged Refusal Progress :=
  if statement.word = "class" then progress.openClass statement
  else
    match progress.current with
    | none => .fail (.malformed (.outsideClass statement.word))
    | some openClass => do
      let directive ← (Logged.ofExcept statement.directive).mapError .malformed
      progress.obey policy openClass directive

def step (policy : UnknownNames) (progress : Progress) (line : List Char) :
    Logged Refusal Progress :=
  match Statement.ofLine? line with
  | some statement => progress.perform policy statement
  | none => pure progress

def report (progress : Progress) : Report :=
  ⟨progress.classes.toList, progress.resolutions.toList⟩

end Progress

/-- Follows lines, the first of which has the number given. -/
def follow (policy : UnknownNames) (number : Nat) (progress : Progress) :
    List (List Char) → Logged Fault Progress
  | [] => pure progress
  | line :: lines => do
    let progress ← (progress.step policy line).mapError (Refusal.fault number)
    follow policy (number + 1) progress lines

/-- Lines are followed piece by piece, and keep their numbers. -/
theorem follow_append (policy : UnknownNames) (number : Nat) (progress : Progress)
    (before after : List (List Char)) :
    follow policy number progress (before ++ after) = (do
      let progress ← follow policy number progress before
      follow policy (number + before.length) progress after) := by
  induction before generalizing number progress with
  | nil => simp [follow]
  | cons line lines ih => simp [follow, ih, Nat.add_assoc, Nat.add_comm 1]

def replay (policy : UnknownNames) (text : String) : Logged Fault Report := do
  let progress ← follow policy 1 {} (Text.lines text.toList)
  let report := progress.report
  Logged.emit [.replayed report.resolutions.length report.classes.length]
  pure report

end JackScopes.Trace
