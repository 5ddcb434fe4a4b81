import JackScopes.Json.Mismatch
import JackScopes.Settings.Basic

/-!
# Reading settings

Settings are written in JSON: an object with the members `unknownNames` and
`logLevel`, either of which may be missing, or a list of their values in this
order. The choice for unknown names is written as a string or as an object
whose only key is that string and whose value is `null`.
-/

namespace JackScopes

open Json (Cause Misreading Reader)

namespace Settings

structure Draft where
  unknownNames : Option UnknownNames := none
  logLevel : Option String := none
  deriving DecidableEq

/-- The settings of a draft. What is missing takes its default. -/
def Draft.settings (draft : Draft) : Settings :=
  let standard : Settings := {}
  { unknownNames := draft.unknownNames.getD standard.unknownNames
    logLevel := draft.logLevel.getD standard.logLevel }

inductive Member
  | unknownNames
  | logLevel
  deriving DecidableEq

namespace Member

def all : List Member :=
  [.unknownNames, .logLevel]

def name : Member → String
  | unknownNames => "unknownNames"
  | logLevel => "logLevel"

def ofString? (s : String) : Option Member :=
  all.find? (·.name = s)

def isIn (draft : Draft) : Member → Bool
  | unknownNames => draft.unknownNames.isSome
  | logLevel => draft.logLevel.isSome

end Member

-- ---------------------------------------------------------------------------
-- Values
-- ---------------------------------------------------------------------------

/-- Reads the name of a choice whose opening quote has been taken. -/
def choice : Reader UnknownNames := do
  let name ← Reader.stringBody
  match UnknownNames.ofString? name with
  | some choice => return choice
  | none => Reader.failAfter (.unknownVariant name (UnknownNames.all.map (·.name)))

/-- Reads an object with a choice as its only key, behind the opening brace. -/
def choiceObject : Reader UnknownNames := do
  match ← Reader.peekPastBlanks with
  | none => Reader.failAt .endInObject
  | some '"' => do
    Reader.advance
    let choice ← choice
    Reader.colon
    Reader.null "unit"
    match ← Reader.peekPastBlanks with
    | none => Reader.failAt .endInObject
    | some '\x7d' => do
      Reader.advance
      return choice
    | some _ => Reader.failAfter .expectedValue
  | some '\x7d' => Reader.failAt .expectedValue
  | some _ => Reader.failAt .keyNotString

def unknownNamesValue : Reader UnknownNames := do
  match ← Reader.peekPastBlanks with
  | none => Reader.failAt .endInValue
  | some '"' => do
    Reader.advance
    choice
  | some '\x7b' => do
    Reader.advance
    choiceObject
  | some _ => Reader.failAt .expectedValue

def logLevelValue : Reader String :=
  Reader.string "a string"

def value (draft : Draft) : Member → Reader Draft
  | .unknownNames => do return { draft with unknownNames := some (← unknownNamesValue) }
  | .logLevel => do return { draft with logLevel := some (← logLevelValue) }

-- ---------------------------------------------------------------------------
-- Objects
-- ---------------------------------------------------------------------------

/-- Refuses a key. A brace that closes the object right after it is taken too. -/
def refuseKey {α : Type} (cause : Cause) : Reader α := do
  if (← Reader.peekPastBlanks) = some '\x7d' then Reader.advance
  Reader.failAfter cause

def member (draft : Draft) : Reader Draft := do
  let key ← Reader.stringBody
  match Member.ofString? key with
  | none => refuseKey (.unknownField key (Member.all.map (·.name)))
  | some member =>
    if member.isIn draft then refuseKey (.repeatedField key)
    else
      Reader.colon
      value draft member

/-- Reads a member and those behind it, up to the closing brace. No more than
`room` further members can be read before a key is refused. -/
def members (draft : Draft) : Nat → Reader Draft
  | 0 => member draft
  | room + 1 => do
    let draft ← member draft
    match ← Reader.peekPastBlanks with
    | none => Reader.failAt .endInObject
    | some '\x7d' => do
      Reader.advance
      return draft
    | some ',' => do
      Reader.advance
      match ← Reader.peekPastBlanks with
      | none => Reader.failAt .endInValue
      | some '"' => do
        Reader.advance
        members draft room
      | some '\x7d' => Reader.failAt .trailingComma
      | some _ => Reader.failAt .keyNotString
    | some _ => Reader.failAt .expectedObjectEnd

def object : Reader Draft := do
  match ← Reader.peekPastBlanks with
  | none => Reader.failAt .endInObject
  | some '\x7d' => do
    Reader.advance
    return {}
  | some '"' => do
    Reader.advance
    members {} Member.all.length
  | some _ => Reader.failAt .keyNotString

-- ---------------------------------------------------------------------------
-- Lists
-- ---------------------------------------------------------------------------

def listEnd : Reader Unit := do
  match ← Reader.peekPastBlanks with
  | none => Reader.failAt .endInList
  | some ']' => Reader.advance
  | some ',' => do
    Reader.advance
    if (← Reader.peekPastBlanks) = some ']' then Reader.failAt .trailingComma
    else Reader.failAt .trailingCharacters
  | some _ => Reader.failAt .trailingCharacters

def afterFirst (draft : Draft) : Reader Draft := do
  match ← Reader.peekPastBlanks with
  | none => Reader.failAt .endInList
  | some ']' => do
    Reader.advance
    return draft
  | some ',' => do
    Reader.advance
    match ← Reader.peekPastBlanks with
    | none => Reader.failAt .endInValue
    | some ']' => Reader.failAt .trailingComma
    | some _ => do
      let draft ← value draft .logLevel
      listEnd
      return draft
  | some _ => Reader.failAt .expectedListEnd

def list : Reader Draft := do
  match ← Reader.peekPastBlanks with
  | none => Reader.failAt .endInList
  | some ']' => do
    Reader.advance
    return {}
  | some _ => do
    let draft ← value {} .unknownNames
    afterFirst draft

-- ---------------------------------------------------------------------------
-- Whole texts
-- ---------------------------------------------------------------------------

def root : Reader Draft := do
  match ← Reader.peekPastBlanks with
  | none => Reader.failAt .endInValue
  | some '\x7b' => do
    Reader.advance
    object
  | some '[' => do
    Reader.advance
    list
  | some _ => Reader.mismatch "struct Config"

def read (text : String) : Except Misreading Settings :=
  (root.readAll text).map Draft.settings

def ofString (text : String) : Except Fault Settings :=
  match read text with
  | .ok settings => .ok settings
  | .error misreading => .error (.malformedSettings (misreading.text text))

end Settings

end JackScopes
