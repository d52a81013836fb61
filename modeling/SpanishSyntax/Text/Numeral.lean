/-!
# Digits of a base

The digits of the bases up to sixteen, the number that digits write, and the character that
hexadecimal digits name by its code point.
-/

namespace SpanishSyntax.Text

/-- the letters count from ten on, in either case -/
def digitValue? (c : Char) : Option Nat :=
  if '0' ≤ c ∧ c ≤ '9' then some (c.toNat - '0'.toNat)
  else if 'a' ≤ c ∧ c ≤ 'f' then some (c.toNat - 'a'.toNat + 10)
  else if 'A' ≤ c ∧ c ≤ 'F' then some (c.toNat - 'A'.toNat + 10)
  else none

def isDigitOf (base : Nat) (c : Char) : Bool :=
  match digitValue? c with
  | some d => d < base
  | none => false

/-- the number that digits write; what is no digit counts as zero -/
def numeral (base : Nat) (ds : List Char) : Nat :=
  ds.foldl (fun n c => base * n + (digitValue? c).getD 0) 0

def namedChar? (ds : List Char) : Option Char :=
  if ds ≠ [] ∧ ds.all (isDigitOf 16) then
    if h : (numeral 16 ds).isValidChar then some (Char.ofNatAux (numeral 16 ds) h) else none
  else none

end SpanishSyntax.Text
