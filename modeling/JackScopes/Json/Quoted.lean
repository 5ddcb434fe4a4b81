import JackScopes.Json.Reader

/-!
# Strings in JSON

What stands between two double quotes, with its escapes decoded. A character
beyond the first plane is written as two escapes, the halves of a pair; a half
on its own is refused.
-/

namespace JackScopes.Json.Quoted

def hexValue? (c : Char) : Option Nat :=
  if c.isDigit then some (c.toNat - '0'.toNat)
  else if 'a' ≤ c && c ≤ 'f' then some (c.toNat - 'a'.toNat + 10)
  else if 'A' ≤ c && c ≤ 'F' then some (c.toNat - 'A'.toNat + 10)
  else none

def unit? (a b c d : Char) : Option Nat := do
  return (((← hexValue? a) * 16 + (← hexValue? b)) * 16 + (← hexValue? c)) * 16 + (← hexValue? d)

def isFirstHalf (n : Nat) : Bool :=
  0xd800 ≤ n && n ≤ 0xdbff

def isSecondHalf (n : Nat) : Bool :=
  0xdc00 ≤ n && n ≤ 0xdfff

def pairChar (first second : Nat) : Char :=
  .ofNat (0x10000 + (first - 0xd800) * 0x400 + (second - 0xdc00))

def shortEscape? : Char → Option Char
  | '"' => some '"'
  | '\\' => some '\\'
  | '/' => some '/'
  | 'b' => some '\x08'
  | 'f' => some '\x0c'
  | 'n' => some '\n'
  | 'r' => some '\r'
  | 't' => some '\t'
  | _ => none

/-- Why four bytes of hexadecimal digits cannot be read: the text ends within
them, or they are no such digits. -/
def badUnit (position : Nat) (cs : List Char) : Misreading :=
  if Text.utf8Size cs < 4 then ⟨.endInString, position + Text.utf8Size cs⟩
  else ⟨.invalidEscape, position + 4⟩

/-- Why no second half follows the first half of a pair. -/
def badPair (position : Nat) : List Char → Misreading
  | [] => ⟨.endInString, position⟩
  | '\\' :: [] => ⟨.endInString, position + 1⟩
  | '\\' :: 'u' :: cs => badUnit (position + 2) cs
  | '\\' :: _ => ⟨.unpairedEscape, position + 2⟩
  | _ => ⟨.unpairedEscape, position + 1⟩

def body (position : Nat) : List Char → Except Misreading (List Char × Cursor)
  | [] => .error ⟨.endInString, position⟩
  | '"' :: cs => .ok ([], ⟨position + 1, cs⟩)
  | '\\' :: 'u' :: a :: b :: c :: d :: cs =>
    match unit? a b c d with
    | none => .error (badUnit (position + 2) (a :: b :: c :: d :: cs))
    | some n =>
      if isSecondHalf n then .error ⟨.loneHalf, position + 6⟩
      else if isFirstHalf n then
        match cs with
        | '\\' :: 'u' :: e :: f :: g :: h :: cs =>
          match unit? e f g h with
          | none => .error (badUnit (position + 8) (e :: f :: g :: h :: cs))
          | some m =>
            if isSecondHalf m then do
              let (decoded, cursor) ← body (position + 12) cs
              return (pairChar n m :: decoded, cursor)
            else .error ⟨.loneHalf, position + 12⟩
        | cs => .error (badPair (position + 6) cs)
      else do
        let (decoded, cursor) ← body (position + 6) cs
        return (.ofNat n :: decoded, cursor)
  | '\\' :: 'u' :: cs => .error (badUnit (position + 2) cs)
  | '\\' :: c :: cs =>
    match shortEscape? c with
    | none => .error ⟨.invalidEscape, position + 2⟩
    | some decoded => do
      let (rest, cursor) ← body (position + 2) cs
      return (decoded :: rest, cursor)
  | '\\' :: [] => .error ⟨.endInString, position + 1⟩
  | c :: cs =>
    if c < ' ' then .error ⟨.controlCharacter, position + 1⟩
    else do
      let (rest, cursor) ← body (position + c.utf8Size) cs
      return (c :: rest, cursor)

end JackScopes.Json.Quoted

namespace JackScopes.Json

/-- Reads a string whose opening quote has been taken. -/
def Reader.stringBody : Reader String := fun cursor => do
  let (decoded, cursor) ← Quoted.body cursor.position cursor.rest
  return (String.ofList decoded, cursor)

end JackScopes.Json
