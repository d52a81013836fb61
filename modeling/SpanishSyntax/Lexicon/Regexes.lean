/-!
# Regular expressions

A rule of a vocabulary may have a regular expression.  A library compiles the expressions and
searches words for them, and the classifier is made with whatever library it is given: `Regexes` is
what it uses of one.
-/

namespace SpanishSyntax.Lexicon

/-- an expression is refused, or compiled to the test whether a text has a match somewhere -/
structure Regexes where
  compile? : String → Option (String → Bool)

namespace Regexes

/-- the library takes the text for an expression -/
def Accepts (R : Regexes) (expression : String) : Prop :=
  ∃ test, R.compile? expression = some test

/-- the expression in a group that captures nothing -/
def group (expression : String) : String := "(?:" ++ expression ++ ")"

/-- the text that is compiled for the pattern of a rule, which has to match a whole word -/
def wholeWord (pattern : String) : String := "^" ++ group pattern ++ "$"

end Regexes

end SpanishSyntax.Lexicon
