import JackScopes.Fault
import JackScopes.Text.Letters

/-!
# Kinds

The four kinds an identifier can be declared under, the scope that holds each,
and the memory segment through which code reaches the variables of each.
-/

namespace JackScopes

inductive Level
  /-- As long as the class. -/
  | perClass
  /-- Until the next subroutine starts. -/
  | perSubroutine
  deriving DecidableEq

inductive Segment
  | static
  | this
  | argument
  | locals
  deriving DecidableEq

inductive Kind
  | static
  | field
  | arg
  | var
  deriving DecidableEq

def Level.name : Level → String
  | .perClass => "class"
  | .perSubroutine => "subroutine"

def Segment.name : Segment → String
  | .static => "static"
  | .this => "this"
  | .argument => "argument"
  | .locals => "local"

def Segment.all : List Segment :=
  [.static, .this, .argument, .locals]

def Segment.ofString? (s : String) : Option Segment :=
  Segment.all.find? (·.name = s)

namespace Kind

def all : List Kind :=
  [.static, .field, .arg, .var]

def level : Kind → Level
  | .static | .field => .perClass
  | .arg | .var => .perSubroutine

def segment : Kind → Segment
  | .static => .static
  | .field => .this
  | .arg => .argument
  | .var => .locals

def name : Kind → String
  | .static => "STATIC"
  | .field => "FIELD"
  | .arg => "ARG"
  | .var => "VAR"

/-- The kind a word names, in any ASCII letter case. -/
def ofString? (word : String) : Option Kind :=
  all.find? fun kind => Text.sameLetters kind.name word

def ofString (word : String) : Except Fault Kind :=
  match ofString? word with
  | some kind => .ok kind
  | none => .error (.unknownKind word)

theorem mem_all (kind : Kind) : kind ∈ all := by
  cases kind <;> simp [all]

theorem segment_injective {k l : Kind} (h : k.segment = l.segment) : k = l := by
  cases k <;> cases l <;> simp [segment] at h <;> rfl

theorem ofString?_name (kind : Kind) : ofString? kind.name = some kind := by
  cases kind <;> decide

end Kind

end JackScopes
