import JackScopes.Json.Misreading

/-!
# Readers

A reader takes something from the front of a text, from a cursor to a later
one, or fails with a misreading. Readers look at most one character ahead of
what they take.
-/

namespace JackScopes.Json

/-- What is left of a text, and how many bytes of it came before. -/
structure Cursor where
  position : Nat
  rest : List Char
  deriving DecidableEq

def Cursor.start (text : String) : Cursor :=
  ⟨0, text.toList⟩

abbrev Reader := StateT Cursor (Except Misreading)

namespace Cursor

def next? (cursor : Cursor) : Option Char :=
  cursor.rest.head?

def advance (cursor : Cursor) : Cursor :=
  match cursor.rest with
  | [] => cursor
  | c :: rest => ⟨cursor.position + c.utf8Size, rest⟩

def takeWhile (p : Char → Bool) (cursor : Cursor) : List Char :=
  cursor.rest.takeWhile p

def skipWhile (p : Char → Bool) (cursor : Cursor) : Cursor :=
  ⟨cursor.position + Text.utf8Size (cursor.takeWhile p), cursor.rest.dropWhile p⟩

theorem takeWhile_append_rest (p : Char → Bool) (cursor : Cursor) :
    cursor.takeWhile p ++ (cursor.skipWhile p).rest = cursor.rest :=
  List.takeWhile_append_dropWhile

end Cursor

namespace Reader

variable {α : Type}

def peek : Reader (Option Char) := do
  return (← get).next?

def advance : Reader Unit :=
  modify Cursor.advance

def takeWhile (p : Char → Bool) : Reader (List Char) := do
  let cursor ← get
  set (cursor.skipWhile p)
  return cursor.takeWhile p

/-- Fails at the end of what was read. -/
def failAfter (cause : Cause) : Reader α := do
  throw ⟨cause, (← get).position⟩

/-- Fails because of the next byte, which counts as read if there is one. -/
def failAt (cause : Cause) : Reader α := do
  let cursor ← get
  throw ⟨cause, if cursor.rest.isEmpty then cursor.position else cursor.position + 1⟩

def isBlank (c : Char) : Bool :=
  c = ' ' || c = '\t' || c = '\n' || c = '\r'

def peekPastBlanks : Reader (Option Char) := do
  modify (·.skipWhile isBlank)
  peek

def letters : List Char → Reader Unit
  | [] => pure ()
  | l :: ls => do
    match ← peek with
    | none => failAfter .endInValue
    | some c => if c = l then do advance; letters ls else failAt .expectedWord

/-- Runs a reader on a text as a whole: only blanks may follow. -/
def readAll (reader : Reader α) (text : String) : Except Misreading α :=
  let toEnd : Reader α := do
    let a ← reader
    match ← peekPastBlanks with
    | none => return a
    | some _ => failAt .trailingCharacters
  toEnd.run' (.start text)

end Reader

end JackScopes.Json
