/-!
# Double-precision numbers

Finite numbers at or above zero in the 64-bit binary format, as a mantissa and
a power of two, and the arithmetic on them that rounds to nearest with ties to
even. Everything is exact arithmetic on natural numbers.
-/

namespace JackScopes.Decimal

/-- The number `mantissa * 2 ^ exponent`. The mantissa has at most 53 bits, and
all 53 unless the exponent is the least. -/
structure Binary64 where
  mantissa : Nat
  exponent : Int
  deriving DecidableEq

namespace Binary64

/-- The least mantissa of 53 bits. -/
def fullMantissa : Nat := 0x10000000000000

def mantissaLimit : Nat := 0x20000000000000

def leastExponent : Int := -1074

def greatestExponent : Int := 971

def powerOfTwo (exponent : Int) : Nat × Nat :=
  (Nat.pow 2 exponent.toNat, Nat.pow 2 (-exponent).toNat)

def zero : Binary64 :=
  ⟨0, leastExponent⟩

def numerator (x : Binary64) : Nat :=
  x.mantissa * (powerOfTwo x.exponent).1

def denominator (x : Binary64) : Nat :=
  (powerOfTwo x.exponent).2

def isZero (x : Binary64) : Bool :=
  x.mantissa = 0

/-- The quotient to the nearest natural number, a tie to the even one. -/
def roundDiv (num den : Nat) : Nat :=
  let q := num / den
  let twice := 2 * (num % den)
  if den < twice || (twice = den && q % 2 = 1) then q + 1 else q

/-- The exponent at which a quotient has a mantissa of 53 bits, or the least. -/
def exponentFor (num den : Nat) : Int :=
  let low := (num.log2 : Int) - den.log2 - 53
  let (up, down) := powerOfTwo low
  let fitted := if num * down / (den * up) < mantissaLimit then low else low + 1
  max fitted leastExponent

def ofQuotient (num den : Nat) : Option Binary64 :=
  if num = 0 then some zero
  else
    let exponent := exponentFor num den
    let (up, down) := powerOfTwo exponent
    let mantissa := roundDiv (num * down) (den * up)
    let x : Binary64 :=
      if mantissa = mantissaLimit then ⟨fullMantissa, exponent + 1⟩ else ⟨mantissa, exponent⟩
    if x.exponent ≤ greatestExponent then some x else none

def ofNat (n : Nat) : Option Binary64 :=
  ofQuotient n 1

def mul (x y : Binary64) : Option Binary64 :=
  ofQuotient (x.numerator * y.numerator) (x.denominator * y.denominator)

def div (x y : Binary64) : Option Binary64 :=
  ofQuotient (x.numerator * y.denominator) (x.denominator * y.numerator)

def powerOfTen (n : Nat) : Option Binary64 :=
  ofNat (Nat.pow 10 n)

/-- A number times ten to a power. A negative power divides; one beyond the
powers in range divides twice, and leaves nothing beyond two of them. -/
def scale (x : Binary64) (exponent : Int) : Option Binary64 :=
  let n := exponent.natAbs
  if x.isZero then some x
  else if 0 ≤ exponent then
    if n ≤ 308 then do x.mul (← powerOfTen n) else none
  else if n ≤ 308 then do x.div (← powerOfTen n)
  else if n ≤ 616 then do (← x.div (← powerOfTen 308)).div (← powerOfTen (n - 308))
  else some zero

end Binary64

end JackScopes.Decimal
