/-!
# Double precision values

A non-negative value of the binary64 format is a mantissa times a power of two, or infinite.
`Double.ofRatio` rounds a quotient to the nearest value, a tie to the even mantissa;
`Double.ofDecimal` reads decimal digits with a power of ten.  All arithmetic is exact, on
natural numbers.
-/

namespace SpanishSyntax

inductive Double where
  | finite (mantissa : Nat) (exponent : Int)
  | infinite
  deriving DecidableEq, Repr

namespace Double

def leastExponent : Int := -1074

def greatestExponent : Int := 971

def zero : Double := .finite 0 leastExponent

def isZero : Double → Bool
  | .finite m _ => m == 0
  | .infinite => false

/-- the nearest natural number to `a / b`, of two the even one -/
def roundedQuotient (a b : Nat) : Nat :=
  let m := a / b
  let r := a % b
  if b < 2 * r || (2 * r == b && m % 2 == 1) then m + 1 else m

/-- numerator and denominator of `num / den` in units of `2 ^ q` -/
def scaled (num den : Nat) (q : Int) : Nat × Nat := (num * Nat.pow 2 (-q).toNat, den * Nat.pow 2 q.toNat)

/-- the exponent for which `num / den` has a mantissa of 53 bits, or the least one -/
def exponentFor (num den : Nat) : Int :=
  let q := max leastExponent ((num.log2 : Int) - den.log2 - 53)
  let s := scaled num den q
  if Nat.pow 2 53 ≤ s.1 / s.2 then q + 1 else q

def ofRatio (num den : Nat) : Double :=
  if num = 0 then zero
  else
    let q := exponentFor num den
    let s := scaled num den q
    let m := roundedQuotient s.1 s.2
    let (m, q) := if m = Nat.pow 2 53 then (Nat.pow 2 52, q + 1) else (m, q)
    if greatestExponent < q then .infinite else .finite m q

/-- how many decimal digits a number has, zero having none -/
def decimalLength (n : Nat) : Nat := if n = 0 then 0 else (Nat.toDigits 10 n).length

/-- `digits * 10 ^ scale`; the magnitude settles what is far out of range -/
def ofDecimal (digits : Nat) (scale : Int) : Double :=
  let magnitude := (decimalLength digits : Int) + scale
  if digits = 0 ∨ magnitude < -400 then zero
  else if 400 < magnitude then .infinite
  else ofRatio (digits * Nat.pow 10 scale.toNat) (Nat.pow 10 (-scale).toNat)

end Double

end SpanishSyntax
