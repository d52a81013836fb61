import SpanishSyntax.Decimal.Double

/-!
# The fewest digits that read back

The reals that round to a finite value lie between the midpoints to its two neighbours, the
midpoints included when the mantissa is even.  `Double.shortest` looks for a decimal in that
interval on coarser and coarser grids first: one digit, two digits, up to seventeen.  On each
grid only the two neighbours of the value can lie in the interval; of two hits the nearer is
taken, of two equally near ones the even.
-/

namespace SpanishSyntax

/-- `digits * 10 ^ scale` -/
structure Numeral where
  digits : Nat
  scale : Int
  deriving DecidableEq, Repr

namespace Double

/-- a value and the ends of its interval, over one denominator -/
structure Interval where
  low : Nat
  value : Nat
  high : Nat
  denominator : Nat
  closed : Bool
  deriving DecidableEq, Repr

/-- below a power of two the gap is half as wide, except at the least exponent -/
def interval (m : Nat) (q : Int) : Interval :=
  let unit := Nat.pow 2 q.toNat
  let narrow := m == Nat.pow 2 52 && q != leastExponent
  { low := (if narrow then 4 * m - 1 else 4 * m - 2) * unit
    value := 4 * m * unit
    high := (4 * m + 2) * unit
    denominator := 4 * Nat.pow 2 (-q).toNat
    closed := m % 2 == 0 }

/-- both sides of `a / d < n * 10 ^ scale`, cleared of denominators -/
def sides (a d n : Nat) (scale : Int) : Nat × Nat :=
  (a * Nat.pow 10 (-scale).toNat, n * Nat.pow 10 scale.toNat * d)

def Interval.contains (i : Interval) (n : Nat) (scale : Int) : Bool :=
  let l := sides i.low i.denominator n scale
  let h := sides i.high i.denominator n scale
  if i.closed then l.1 ≤ l.2 && h.2 ≤ h.1 else l.1 < l.2 && h.2 < h.1

/-- of the two neighbours of the value on a grid, the one to take -/
def Interval.onGrid (i : Interval) (scale : Int) : Option Numeral :=
  let s := sides i.value i.denominator 1 scale
  let n := s.1 / s.2
  match i.contains n scale, i.contains (n + 1) scale with
  | false, false => none
  | true, false => some ⟨n, scale⟩
  | false, true => some ⟨n + 1, scale⟩
  | true, true =>
    let up := (2 * n + 1) * s.2 < 2 * s.1 || (2 * s.1 == (2 * n + 1) * s.2 && n % 2 == 1)
    some ⟨if up then n + 1 else n, scale⟩

/-- the least power of ten above the value -/
def Interval.magnitude (i : Interval) : Int :=
  let guess := ((i.value.log2 : Int) - i.denominator.log2) * 30103 / 100000 - 2
  let powers := (List.range 6).map fun (k : Nat) => guess + (k : Int)
  (powers.find? fun k => let s := sides i.value i.denominator 1 k; s.1 < s.2).getD (guess + 6)

/-- drops trailing zeros, `n` at most -/
def dropZeros : Nat → Numeral → Numeral
  | 0, d => d
  | n + 1, d =>
    if d.digits ≠ 0 ∧ d.digits % 10 = 0 then dropZeros n ⟨d.digits / 10, d.scale + 1⟩ else d

def shortestFinite (m : Nat) (q : Int) : Numeral :=
  if m = 0 then ⟨0, 0⟩
  else
    let i := interval m q
    let k := i.magnitude
    let lengths := (List.range 17).map fun (n : Nat) => k - (n + 1 : Nat)
    let exact := m * Nat.pow 2 q.toNat * Nat.pow 5 (-q).toNat
    dropZeros 20 ((lengths.findSome? i.onGrid).getD ⟨exact, min q 0⟩)

end Double

end SpanishSyntax
