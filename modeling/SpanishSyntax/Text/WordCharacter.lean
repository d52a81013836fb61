import SpanishSyntax.Text.Letter
import SpanishSyntax.Text.Digit
import SpanishSyntax.Text.Mark

/-!
# Characters that make up names and words

`isAlphanumeric` is what a grammar symbol may be made of, `isWordChar` is the class that a
pattern writes as `\w`.  Both contain the letters and the decimal digits of every script.
-/

namespace SpanishSyntax.Text

/-- a letter or a number character -/
def isAlphanumeric (c : Char) : Bool :=
  isLetter c || isDecimalDigit c || isOtherNumber c

/-- general category Pc -/
def connectorRanges : Ranges :=
  [(0x005F, 0x005F), (0x203F, 0x2040), (0x2054, 0x2054), (0xFE33, 0xFE34), (0xFE4D, 0xFE4F),
   (0xFF3F, 0xFF3F)]

/-- zero-width joiner and non-joiner -/
def isJoiner (c : Char) : Bool :=
  c == '\u200C' || c == '\u200D'

/-- a letter, mark, decimal digit, connector or joiner -/
def isWordChar (c : Char) : Bool :=
  isLetter c || isDecimalDigit c || isMark c || connectorRanges.contains c || isJoiner c

end SpanishSyntax.Text
