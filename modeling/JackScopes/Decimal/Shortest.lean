import JackScopes.Decimal.Binary64

/-!
# Shortest decimal text

The fewest decimal digits that lie nearer to a double-precision number than to
any other, and among those the ones nearest to it. The text is positional from
ten to the minus fifth up to ten to the sixteenth, and scientific beyond.
-/

namespace JackScopes.Decimal

/-- Digits `d₀ d₁ …` that stand for `d₀.d₁… * 10 ^ exponent`. -/
structure Digits where
  digits : List Char
  exponent : Int
  deriving DecidableEq

namespace Binary64

/-- How far a number, its lower and its upper rounding bound are up in quarters
of a unit in the last place. The unit below a power of two is half as wide. -/
def quarters (x : Binary64) : Nat × Nat × Nat :=
  let m := 4 * x.mantissa
  let below := if x.mantissa = fullMantissa && leastExponent < x.exponent then 1 else 2
  (m, m - below, m + 2)

def belowOne (x : Binary64) : Bool :=
  x.numerator < x.denominator

def leading (x : Binary64) : Int :=
  if x.belowOne then
    match (List.range 400).find? fun n => x.denominator ≤ x.numerator * Nat.pow 10 n with
    | some n => -n
    | none => 0
  else ((Nat.toDigits 10 (x.numerator / x.denominator)).length : Int) - 1

/-- The multiple of `10 ^ unit` nearest to a number among the two around it that
round to the number, if one does; of two as near, the even one. -/
def nearestOn (x : Binary64) (unit : Int) : Option Nat :=
  let (value, low, high) := x.quarters
  let (up, down) := powerOfTwo (x.exponent - 2)
  let p := Nat.pow 10 unit.toNat * down
  let q := Nat.pow 10 (-unit).toNat * up
  let d := value * q / p
  let within (n : Nat) : Bool :=
    if x.mantissa % 2 = 0 then low * q ≤ n * p && n * p ≤ high * q
    else low * q < n * p && n * p < high * q
  let below := value * q - d * p
  let above := (d + 1) * p - value * q
  if within d && within (d + 1) then
    some (if below < above || (below = above && d % 2 = 0) then d else d + 1)
  else if within d then some d
  else if within (d + 1) then some (d + 1)
  else none

def digitsOf (n : Nat) (unit : Int) : Digits :=
  let all := Nat.toDigits 10 n
  ⟨(all.reverse.dropWhile (· = '0')).reverse, unit + all.length - 1⟩

/-- The shortest digits, found on the coarsest decimal grid that has a hit.
Seventeen digits always suffice. -/
def shortest (x : Binary64) : Digits :=
  let lead := x.leading
  let grid (n : Nat) : Int := lead - n
  match (List.range 17).findSome? fun n => (x.nearestOn (grid n)).map (digitsOf · (grid n)) with
  | some digits => digits
  | none => ⟨[], 0⟩

end Binary64

def exponentText (exponent : Int) : List Char :=
  'e' :: (if exponent < 0 then '-' else '+') :: Nat.toDigits 10 exponent.natAbs

/-- Digits as a text: with a point between -5 and 15, else scientific. -/
def Digits.text (digits : Digits) : List Char :=
  let ds := digits.digits
  let e := digits.exponent
  if e < -5 || 15 < e then
    ds.take 1 ++ (if ds.length ≤ 1 then [] else '.' :: ds.drop 1) ++ exponentText e
  else if e < 0 then '0' :: '.' :: (List.replicate (e.natAbs - 1) '0' ++ ds)
  else
    let whole := e.toNat + 1
    let padded := ds ++ List.replicate (whole - ds.length) '0'
    let fraction := padded.drop whole
    padded.take whole ++ '.' :: (if fraction = [] then ['0'] else fraction)

def Binary64.text (x : Binary64) : List Char :=
  if x.isZero then ['0', '.', '0'] else x.shortest.text

end JackScopes.Decimal
