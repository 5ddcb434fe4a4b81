import JackScopes.Decimal.Shortest
import JackScopes.Json.Reader

/-!
# Numbers in JSON

A number is read only to say what stood where no number belongs. It is an
integer if it is written as one and fits 64 bits, else a double-precision
number. Its digits count as long as they fit 64 bits together; further ones
before the point raise the power of ten, and further ones behind it are
dropped.
-/

namespace JackScopes.Json

open JackScopes.Decimal

/-- The digits of a number that count, as one integer, and the power of ten to
scale it by. -/
structure Significand where
  value : Nat
  exponent : Int := 0
  deriving DecidableEq

namespace Significand

def limit : Nat := 0x10000000000000000

def digitValue (c : Char) : Nat :=
  c.toNat - '0'.toNat

def addWhole (s : Significand) : List Char → Significand
  | [] => s
  | d :: ds =>
    let value := 10 * s.value + digitValue d
    if value < limit then addWhole { s with value } ds
    else { s with exponent := s.exponent + (d :: ds).length }

def addFraction (s : Significand) : List Char → Significand
  | [] => s
  | d :: ds =>
    let value := 10 * s.value + digitValue d
    if value < limit then addFraction ⟨value, s.exponent - 1⟩ ds else s

def shift (s : Significand) (exponent : Int) : Significand :=
  { s with exponent := s.exponent + exponent }

def toBinary64 (s : Significand) : Option Binary64 :=
  (Binary64.ofNat s.value).bind (·.scale s.exponent)

end Significand

/-- The greatest exponent that is added up as written. -/
def exponentLimit : Nat := 0x7fffffff

def digitsBeyond? (value count : Nat) : List Char → Option Nat
  | [] => none
  | d :: ds =>
    let value := 10 * value + Significand.digitValue d
    if exponentLimit < value then some (count + 1) else digitsBeyond? value (count + 1) ds

def signed (negative : Bool) (digits : List Char) : String :=
  String.ofList (if negative then '-' :: digits else digits)

namespace Reader

def isDigit (c : Option Char) : Bool :=
  c.any Char.isDigit

def digits : Reader (List Char) := do
  match ← peek with
  | none => failAt .endInValue
  | some c => if c.isDigit then takeWhile Char.isDigit else failAt .invalidNumber

def float (negative : Bool) (s : Significand) : Reader Found := do
  match s.toBinary64 with
  | some x => return .float (signed negative x.text)
  | none => failAfter .numberOutOfRange

/-- Reads an optional sign of an exponent: whether it is negative. -/
def exponentSign : Reader Bool := do
  match ← peek with
  | some '-' => do advance; return true
  | some '+' => do advance; return false
  | _ => return false

/-- Reads the exponent behind its mark. One beyond the limit leaves zero, or is
out of range as soon as it is seen. -/
def exponent (negative : Bool) (s : Significand) : Reader Found := do
  advance
  let down ← exponentSign
  let start := (← get).position
  let ds ← digits
  match digitsBeyond? 0 0 ds with
  | some count =>
    if s.value ≠ 0 && !down then throw ⟨.numberOutOfRange, start + count⟩
    else float negative ⟨0, 0⟩
  | none =>
    let n : Int := ds.foldl (fun n d => 10 * n + Significand.digitValue d) 0
    float negative (s.shift (if down then -n else n))

def floatEnd (negative : Bool) (s : Significand) : Reader Found := do
  match ← peek with
  | some 'e' | some 'E' => exponent negative s
  | _ => float negative s

def fraction (negative : Bool) (s : Significand) : Reader Found := do
  advance
  let ds ← digits
  floatEnd negative (s.addFraction ds)

/-- An integer that fits 64 bits, in two's complement if it is negative. -/
def integer (negative : Bool) (n : Nat) : Reader Found :=
  if !negative then return .integer n
  else if n ≠ 0 && n ≤ 0x8000000000000000 then return .integer (-n)
  else float true ⟨n, 0⟩

/-- Reads the whole digits: a zero stands alone. -/
def whole : Reader Significand := do
  match ← peek with
  | some '0' => do
    advance
    if isDigit (← peek) then failAt .invalidNumber else return ⟨0, 0⟩
  | _ => do
    let ds ← digits
    return Significand.addWhole ⟨0, 0⟩ ds

def number (negative : Bool) : Reader Found := do
  let s ← whole
  match ← peek with
  | some '.' => fraction negative s
  | some 'e' | some 'E' => exponent negative s
  | _ => if s.exponent = 0 then integer negative s.value else float negative s

end Reader

end JackScopes.Json
