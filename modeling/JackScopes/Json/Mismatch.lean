import JackScopes.Json.Numeral
import JackScopes.Json.Quoted

/-!
# Mismatches

A value that is not what was wanted is refused by what it is: a scalar is read
first, a list or a map is refused at its bracket.
-/

namespace JackScopes.Json.Reader

variable {α : Type}

def unexpected (found : Found) (wanted : String) : Reader α :=
  failAfter (.unexpected found wanted)

/-- Refuses the value that starts with the next character. -/
def mismatch (wanted : String) : Reader α := do
  match ← peek with
  | some 'n' => do
    advance
    letters ['u', 'l', 'l']
    unexpected .null wanted
  | some 't' => do
    advance
    letters ['r', 'u', 'e']
    unexpected (.boolean true) wanted
  | some 'f' => do
    advance
    letters ['a', 'l', 's', 'e']
    unexpected (.boolean false) wanted
  | some '"' => do
    advance
    unexpected (.string (← stringBody)) wanted
  | some '-' => do
    advance
    unexpected (← number true) wanted
  | some '[' => unexpected .sequence wanted
  | some '\x7b' => unexpected .map wanted
  | c => do
    if isDigit c then unexpected (← number false) wanted else failAt .expectedValue

def string (wanted : String) : Reader String := do
  match ← peekPastBlanks with
  | none => failAt .endInValue
  | some '"' => do
    advance
    stringBody
  | some _ => mismatch wanted

def null (wanted : String) : Reader Unit := do
  match ← peekPastBlanks with
  | none => failAt .endInValue
  | some 'n' => do
    advance
    letters ['u', 'l', 'l']
  | some _ => mismatch wanted

def colon : Reader Unit := do
  match ← peekPastBlanks with
  | none => failAt .endInObject
  | some ':' => advance
  | some _ => failAt .expectedColon

end JackScopes.Json.Reader
