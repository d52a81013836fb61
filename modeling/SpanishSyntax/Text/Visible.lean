import SpanishSyntax.Text.Graphic
import SpanishSyntax.Text.Mark

/-!
# One character, shown in a message

`visible c` stands in double quotes and names `c` without doubt: what would not print, or
would attach itself to the quote before it, is written by its code point.
-/

namespace SpanishSyntax.Text

def byCodePoint (c : Char) : String :=
  "\\u\x7b" ++ String.ofList (Nat.toDigits 16 c.toNat) ++ "\x7d"

def visibleChar (c : Char) : String :=
  match c with
  | '\\' => "\\\\"
  | '"' => "\\\""
  | '\t' => "\\t"
  | '\n' => "\\n"
  | '\r' => "\\r"
  | '\x00' => "\\0"
  | _ => if isExtender c || !isGraphic c then byCodePoint c else c.toString

def visible (c : Char) : String :=
  "\"" ++ visibleChar c ++ "\""

end SpanishSyntax.Text
