import SpanishSyntax.Decimal.Shortest

/-!
# How numerals are laid out

A layout says which exponents are written positionally, whether a whole number keeps a point
and a zero, whether a positive exponent has a sign, and how infinity is written.  The layouts
of the output formats are values of it.
-/

namespace SpanishSyntax

/-- `window` holds the exponents of the leading digit that are written positionally, all if
absent -/
structure DecimalLayout where
  window : Option (Int × Int)
  keepsPoint : Bool
  signsExponent : Bool
  infinite : String
  deriving DecidableEq, Repr

namespace DecimalLayout

/-- the shortest digits, with an exponent from `1e+16` on and below `1e-5` -/
def signed : DecimalLayout := ⟨some (-5, 15), true, true, "inf"⟩

/-- as `signed`, with `null` for what is not a number of the format -/
def json : DecimalLayout := { signed with infinite := "null" }

def yaml : DecimalLayout := ⟨some (-5, 15), true, false, ".inf"⟩

/-- never an exponent, and a whole number looks like an integer -/
def plain : DecimalLayout := ⟨none, false, false, "inf"⟩

end DecimalLayout

namespace Numeral

def zeros (n : Nat) : List Char := List.replicate n '0'

def digitChars (d : Numeral) : List Char := Nat.toDigits 10 d.digits

/-- the exponent of the leading digit -/
def exponent (d : Numeral) : Int := (d.digitChars.length : Int) - 1 + d.scale

def positional (keepsPoint : Bool) (d : Numeral) : List Char :=
  let ds := d.digitChars
  let places := (-d.scale).toNat
  if places = 0 then ds ++ zeros d.scale.toNat ++ if keepsPoint then ['.', '0'] else []
  else if places < ds.length then
    ds.take (ds.length - places) ++ '.' :: ds.drop (ds.length - places)
  else ['0', '.'] ++ zeros (places - ds.length) ++ ds

def scientific (signsExponent : Bool) (d : Numeral) : List Char :=
  let e := d.exponent
  let sign := if e < 0 then ['-'] else if signsExponent then ['+'] else []
  let power := 'e' :: sign ++ Nat.toDigits 10 e.natAbs
  match d.digitChars with
  | [c] => c :: power
  | c :: cs => c :: '.' :: cs ++ power
  | [] => power

def text (l : DecimalLayout) (d : Numeral) : String :=
  let fits := match l.window with
    | none => true
    | some (low, high) => low ≤ d.exponent && d.exponent ≤ high
  String.ofList (if fits then d.positional l.keepsPoint else d.scientific l.signsExponent)

end Numeral

def Double.text (l : DecimalLayout) : Double → String
  | .finite m q => (Double.shortestFinite m q).text l
  | .infinite => l.infinite

end SpanishSyntax
