/-!
# Character classes given by ranges of code points

A class of characters that a standard lists is a list of closed ranges in ascending order.
`Ranges.contains` looks a character up in such a list.
-/

namespace SpanishSyntax.Text

/-- closed ranges of code points, in ascending order -/
abbrev Ranges := List (Nat × Nat)

def Ranges.contains (rs : Ranges) (c : Char) : Bool :=
  rs.any fun r => r.1 ≤ c.toNat && c.toNat ≤ r.2

theorem Ranges.contains_iff (rs : Ranges) (c : Char) :
    rs.contains c = true ↔ ∃ r ∈ rs, r.1 ≤ c.toNat ∧ c.toNat ≤ r.2 := by
  simp [Ranges.contains]

end SpanishSyntax.Text
