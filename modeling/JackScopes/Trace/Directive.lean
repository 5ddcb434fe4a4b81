import JackScopes.Kind
import JackScopes.Text.Blank
import JackScopes.Text.Lines
import JackScopes.Trace.Complaint

/-!
# Directives

What a line of a trace says. Without its comment and outer blanks, a line is
empty or a statement: a first word and a rest. The statement `class NAME` opens
a class; the other statements are directives to the class at hand.
-/

namespace JackScopes.Trace

structure Statement where
  word : String
  rest : List Char
  deriving DecidableEq

/-- The statement on a line that is not blank. -/
def Statement.ofLine? (line : List Char) : Option Statement :=
  let cs := Text.trim (Text.withoutComment line)
  if cs = [] then none else some ⟨String.ofList (Text.firstWord cs), Text.afterWord cs⟩

inductive Directive
  | startSubroutine (name : String)
  | resolve (name : String)
  /-- Declares each name of a list, given as written. -/
  | declare (kind : Kind) (type : String) (names : List Char)
  deriving DecidableEq

def identifier (cs : List Char) (complaint : Complaint) : Except Complaint String :=
  if Text.isIdentifier cs then .ok (String.ofList cs) else .error complaint

namespace Statement

def className (statement : Statement) : Except Complaint String :=
  identifier statement.rest .noClassName

def declaration (statement : Statement) : Except Complaint Directive :=
  match Kind.ofString? statement.word with
  | none => .error (.unknownKind statement.word)
  | some kind =>
    if statement.rest = [] then .error (.noType statement.word)
    else .ok (.declare kind (String.ofList (Text.firstWord statement.rest))
      (Text.afterWord statement.rest))

def directive (statement : Statement) : Except Complaint Directive :=
  if statement.word = "subroutine" then
    (identifier statement.rest .noSubroutineName).map .startSubroutine
  else if statement.word = "resolve" then
    (identifier statement.rest .noName).map .resolve
  else statement.declaration

end Statement

def namePieces (names : List Char) : List (List Char) :=
  (names.splitOn ',').map Text.trim

end JackScopes.Trace
