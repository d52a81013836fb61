/-!
# Markup entities

The five characters that mean something in markup are written as entities, every other
character as itself.  `escapeInTurn` goes through the text once for each of the five, and so sees
the entities that it wrote before; `escape` looks at every character by itself.
-/

namespace SpanishSyntax.Text

def entity : Char → List Char
  | '&' => ['&', 'a', 'm', 'p', ';']
  | '<' => ['&', 'l', 't', ';']
  | '>' => ['&', 'g', 't', ';']
  | '"' => ['&', 'q', 'u', 'o', 't', ';']
  | '\'' => ['&', 'a', 'p', 'o', 's', ';']
  | c => [c]

def escapeChars (cs : List Char) : List Char := cs.flatMap entity

def escape (s : String) : String := String.ofList (escapeChars s.toList)

theorem escapeChars_cons (c : Char) (cs : List Char) :
    escapeChars (c :: cs) = entity c ++ escapeChars cs := rfl
theorem escapeChars_append (a b : List Char) :
    escapeChars (a ++ b) = escapeChars a ++ escapeChars b := by
  simp [escapeChars]

/-- the ampersand goes first, for every entity begins with one -/
def escapeInTurn (s : String) : String :=
  s.replace '&' "&amp;"
    |>.replace '<' "&lt;"
    |>.replace '>' "&gt;"
    |>.replace '"' "&quot;"
    |>.replace '\'' "&apos;"

end SpanishSyntax.Text
