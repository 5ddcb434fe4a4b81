import JackScopes.Text.Letters

/-!
# Severities

How severe an event is, and which severities a threshold lets through. A
threshold is written as a number from one to five or as a name.
-/

namespace JackScopes

inductive Severity
  | error
  | warn
  | info
  | debug
  | trace
  deriving DecidableEq

namespace Severity

def all : List Severity :=
  [.error, .warn, .info, .debug, .trace]

/-- One for the most severe, five for the least. -/
def number : Severity → Nat
  | .error => 1
  | .warn => 2
  | .info => 3
  | .debug => 4
  | .trace => 5

def name : Severity → String
  | .error => "ERROR"
  | .warn => "WARN"
  | .info => "INFO"
  | .debug => "DEBUG"
  | .trace => "TRACE"

def admits (threshold severity : Severity) : Bool :=
  severity.number ≤ threshold.number

def numberLimit : Nat := 0x10000000000000000

/-- Adds decimal digits to a number, as long as it fits 64 bits. -/
def addDigits? (n : Nat) : List Char → Option Nat
  | [] => some n
  | d :: ds =>
    let next := 10 * n + (d.toNat - '0'.toNat)
    if next < numberLimit then addDigits? next ds else none

/-- A number in decimal digits, after at most one plus sign. -/
def readNumber? (cs : List Char) : Option Nat :=
  let digits := match cs with
    | '+' :: rest => rest
    | _ => cs
  if !digits.isEmpty && digits.all Char.isDigit then addDigits? 0 digits else none

def ofNumber? (n : Nat) : Option Severity :=
  all.find? (·.number = n)

def ofName? (s : String) : Option Severity :=
  all.find? fun severity => Text.sameLetters severity.name s

/-- A threshold from its number or else its name, in any ASCII letter case. -/
def ofString? (s : String) : Option Severity :=
  ((readNumber? s.toList).bind ofNumber?).or (ofName? s)

theorem admits_trans {a b c : Severity} (hab : a.admits b = true) (hbc : b.admits c = true) :
    a.admits c = true := by
  simp only [admits, decide_eq_true_eq] at *
  omega

end Severity

end JackScopes
