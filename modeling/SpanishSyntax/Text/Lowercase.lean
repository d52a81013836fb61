import SpanishSyntax.Text.Casing

/-!
# Small letters

`lowercase` maps a whole text.  Two capitals depend on more than themselves: a dotted capital
I keeps its dot as a mark of its own, and a sigma that ends a word takes its final form.
-/

namespace SpanishSyntax.Text

/-- the nearest character that is not case-ignorable is a cased one -/
def meetsCased (cs : List Char) : Bool :=
  match cs.dropWhile isCaseIgnorable with
  | c :: _ => isCased c
  | [] => false

/-- `before` is read backwards from the character, `after` forwards -/
def lowerAt (before : List Char) (c : Char) (after : List Char) : List Char :=
  if c == 'Σ' then [if meetsCased before && !meetsCased after then 'ς' else 'σ']
  else if c == 'İ' then ['i', '\u0307']
  else [lowerChar c]

def lowerFrom (before : List Char) : List Char → List Char
  | [] => []
  | c :: cs => lowerAt before c cs ++ lowerFrom (c :: before) cs

def lowercase (s : String) : String :=
  String.ofList (lowerFrom [] s.toList)

end SpanishSyntax.Text
