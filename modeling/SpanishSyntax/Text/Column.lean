/-!
# Columns

Texts of fewer characters than a column is wide are filled up with spaces, on the left or on the
right; longer ones stay as they are.  `numberedLines` puts a column of numbers before lines.
-/

namespace SpanishSyntax.Text

def spaces (n : Nat) : String := String.ofList (List.replicate n ' ')

def alignRight (width : Nat) (s : String) : String := spaces (width - s.length) ++ s

def alignLeft (width : Nat) (s : String) : String := s ++ spaces (width - s.length)

/-- two columns to the right, behind a number of three columns at least -/
def numberedLines (n : Nat) : List String → List String
  | [] => []
  | l :: ls => ("  " ++ alignRight 3 (toString n) ++ "  " ++ l) :: numberedLines (n + 1) ls

end SpanishSyntax.Text
