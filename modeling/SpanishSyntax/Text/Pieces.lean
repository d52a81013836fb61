/-!
# Cutting a text at separators

`pieces p` cuts a text at every character that satisfies `p`; there is one piece more than
separators.  `words p` keeps the pieces that are not empty.  `joined sep` is the way back: it
puts `sep` between the parts.
-/

namespace SpanishSyntax.Text

def pieces (p : Char → Bool) : List Char → List (List Char)
  | [] => [[]]
  | c :: cs =>
    if p c then [] :: pieces p cs
    else match pieces p cs with
      | [] => [[c]]
      | w :: ws => (c :: w) :: ws

def words (p : Char → Bool) (cs : List Char) : List (List Char) :=
  (pieces p cs).filter (· ≠ [])

theorem pieces_cons_sep {p : Char → Bool} {c : Char} (h : p c = true) (cs : List Char) :
    pieces p (c :: cs) = [] :: pieces p cs := by
  simp [pieces, h]

theorem pieces_ne_nil (p : Char → Bool) (cs : List Char) : pieces p cs ≠ [] := by
  cases cs with
  | nil => simp [pieces]
  | cons c cs =>
    by_cases h : p c = true
    · simp [pieces, h]
    · simp only [pieces, h]
      cases pieces p cs <;> simp

/-- the lines of a text, cut at line feeds -/
def lines (s : String) : List (List Char) :=
  pieces (· == '\n') s.toList

def joined (sep : String) : List String → String
  | [] => ""
  | [s] => s
  | s :: ss => s ++ sep ++ joined sep ss

theorem joined_singleton (sep s : String) : joined sep [s] = s := rfl
theorem joined_cons_cons (sep s t : String) (ss : List String) :
    joined sep (s :: t :: ss) = s ++ sep ++ joined sep (t :: ss) := rfl

/-- every line with a line feed at its end -/
def unlines : List String → String
  | [] => ""
  | l :: ls => l ++ "\n" ++ unlines ls

theorem unlines_cons (l : String) (ls : List String) :
    unlines (l :: ls) = l ++ "\n" ++ unlines ls := rfl

end SpanishSyntax.Text
