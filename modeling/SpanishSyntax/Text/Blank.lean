import SpanishSyntax.Text.Ranges

/-!
# White space

`isBlank` is the Unicode property White_Space, the one notion of a blank here: the segmenter
skips it and a line of rule text is trimmed of it.
-/

namespace SpanishSyntax.Text

/-- White_Space -/
def blankRanges : Ranges :=
  [(0x0009, 0x000D), (0x0020, 0x0020), (0x0085, 0x0085), (0x00A0, 0x00A0), (0x1680, 0x1680),
   (0x2000, 0x200A), (0x2028, 0x2029), (0x202F, 0x202F), (0x205F, 0x205F), (0x3000, 0x3000)]

def isBlank (c : Char) : Bool :=
  blankRanges.contains c

def trim (cs : List Char) : List Char :=
  ((cs.dropWhile isBlank).reverse.dropWhile isBlank).reverse

end SpanishSyntax.Text
