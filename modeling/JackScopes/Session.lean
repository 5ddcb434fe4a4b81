import JackScopes.Log.Sink
import JackScopes.Table

/-!
# Sessions

A session is a row of commands to one table: operations that change it and
queries that do not. Each command has an answer and logs events.
-/

namespace JackScopes

inductive Query
  | count (kind : Kind)
  | counts
  | kindOf (name : String)
  | typeOf (name : String)
  | indexOf (name : String)
  | resolve (name : String)
  | storageOf (name : String)
  | entries (kind : Kind)
  | inSubroutine
  | text
  deriving DecidableEq

inductive Command
  /-- Goes on with a fresh table. -/
  | renew
  | startSubroutine
  | define (kind : Kind) (name type : String)
  | ask (query : Query)
  deriving DecidableEq

inductive Answer
  | nothing
  | number (n : Nat)
  | numbers (ns : List Nat)
  | kind (kind : Kind)
  | flag (b : Bool)
  | text (s : String)
  | type (type : Option String)
  | index (index : Option Nat)
  | entry (entry : Option Entry)
  | storage (storage : Option Storage)
  | entries (entries : List Entry)
  deriving DecidableEq

def Table.answer (table : Table) : Query → Answer
  | .count kind => .number (table.count kind)
  | .counts => .numbers table.counts
  | .kindOf name => .kind (table.kindOf name)
  | .typeOf name => .type (table.typeOf name)
  | .indexOf name => .index (table.indexOf name)
  | .resolve name => .entry (table.resolve name)
  | .storageOf name => .storage (table.storageOf name)
  | .entries kind => .entries (table.entries kind)
  | .inSubroutine => .flag table.inSubroutine
  | .text => .text table.text

namespace Command

def apply (table : Table) : Command → Table
  | renew => {}
  | startSubroutine => table.startSubroutine
  | define kind name type => table.define kind name type
  | ask _ => table

/-- The answer to a command. A definition is answered by the new entry's index. -/
def answer (table : Table) : Command → Answer
  | renew | startSubroutine => .nothing
  | define kind _ _ => .number (table.count kind)
  | ask query => table.answer query

def events (table : Table) : Command → List Event
  | startSubroutine => table.startEvents
  | define kind name type => table.defineEvents kind name type
  | renew | ask _ => []

end Command

namespace Session

def final (table : Table) (commands : List Command) : Table :=
  commands.foldl Command.apply table

def replies (table : Table) : List Command → List (Answer × List Event)
  | [] => []
  | command :: rest =>
    (command.answer table, command.events table) :: replies (command.apply table) rest

def events (table : Table) (commands : List Command) : List Event :=
  (replies table commands).flatMap Prod.snd

/-- What is printed when thresholds are installed one after the other and the
events of a row of commands are logged then. -/
def logged (thresholds : List Severity) (commands : List Command) : String :=
  Sink.notices {} thresholds ++ (Sink.installAll {} thresholds).write (events {} commands)

end Session

end JackScopes
