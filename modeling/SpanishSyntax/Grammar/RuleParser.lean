import SpanishSyntax.Grammar.RuleText
import SpanishSyntax.Text.Parser

/-!
# Rule lines as a parser

`RuleLine.read` cuts a line at the characters that end its parts.  Here the line is described by
parsers for its parts, put together: symbols, arrow and bars with gaps around them, alternatives
with bars between them, and perhaps a comment.  A gap behind a symbol belongs to the symbol, and
one that no symbol follows is left for whoever comes next.
-/

namespace SpanishSyntax

namespace RuleLine

open TextParser

def gapParser : TextParser (List Char) := repeated (satisfying isGap)

def symbolParser : TextParser String :=
  map String.ofList (atLeast 1 (repeated (satisfying isSymbolChar)))

def arrowParser : TextParser (List Char) :=
  orElse (orElse (just ['-', '>']) (just ['→'])) (just [':', ':', '='])

/-- a lone `ε` stands for no symbol -/
def withoutEpsilon (symbols : List String) : List String :=
  match symbols with
  | ["ε"] => []
  | symbols => symbols

def alternativeParser : TextParser (List String) :=
  map withoutEpsilon (repeated (paddedBy symbolParser gapParser))

def barParser : TextParser (List Char) := paddedBy (just ['|']) gapParser

def commentParser : TextParser (List Char × List Char) := andThen (just ['#']) (repeated anyChar)

def ruleParser : TextParser (String × List (List String)) :=
  andIgnore
    (andIgnore
      (andIgnore
        (andThen (andIgnore (paddedBy symbolParser gapParser) arrowParser)
          (separatedBy alternativeParser barParser))
        gapParser)
      (perhaps commentParser))
    atEnd

/-- the rules that `p` reads in the lines, or the number of the first line that it does not read -/
def parseLines (p : TextParser (String × List (List String))) (line : Nat) :
    List (List Char) → Except Nat (List RuleLine)
  | [] => .ok []
  | raw :: rest =>
    let cs := Text.trim raw
    if isSilent cs then parseLines p (line + 1) rest
    else match p.parse cs with
      | none => .error line
      | some (head, alternatives) =>
        (parseLines p (line + 1) rest).map (⟨line, head, alternatives⟩ :: ·)

end RuleLine

/-- lines are counted from one -/
def parseRules (text : String) : Except Nat (List RuleLine) :=
  RuleLine.parseLines RuleLine.ruleParser 1 (Text.lines text)

end SpanishSyntax
