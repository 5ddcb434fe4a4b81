import JackScopes.Fault
import JackScopes.Log.Severity

/-!
# Settings

What a user can choose: what becomes of names that nobody declared, and how
much is logged. The threshold is kept as written and read only when needed.
-/

namespace JackScopes

/-- What becomes of a resolved name that no scope declares. -/
inductive UnknownNames
  /-- It counts as a field without storage. -/
  | aliasField
  | reject
  deriving DecidableEq

structure Settings where
  unknownNames : UnknownNames := .aliasField
  /-- The log threshold as the user wrote it. -/
  logLevel : String := "info"
  deriving DecidableEq

namespace UnknownNames

def all : List UnknownNames :=
  [.aliasField, .reject]

def name : UnknownNames → String
  | .aliasField => "alias-field"
  | .reject => "reject"

def ofString? (s : String) : Option UnknownNames :=
  all.find? (·.name = s)

theorem ofString?_name (choice : UnknownNames) : ofString? choice.name = some choice := by
  cases choice <;> decide

end UnknownNames

namespace Settings

def levelAdvice : String :=
  "error parsing level: expected one of \"error\", \"warn\", \"info\", \"debug\", " ++
    "\"trace\", or a number 1-5"

def severity (settings : Settings) : Except Fault Severity :=
  match Severity.ofString? settings.logLevel with
  | some severity => .ok severity
  | none =>
    .error (.failureFrom ("invalid log level `" ++ settings.logLevel ++ "`")
      (.message levelAdvice))

end Settings

end JackScopes
