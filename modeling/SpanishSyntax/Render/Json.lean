import SpanishSyntax.Decimal.Layout
import SpanishSyntax.Render.Document

/-!
# Documents as JSON

Two columns more for each level, one element or field a line; empty lists and records stay on
one line.  In a string, quotes, backslashes and control characters are escaped and all else is
written as it is.  A number that is not finite is `null`.
-/

namespace SpanishSyntax.Render

namespace Json

def hexDigits (width n : Nat) : List Char :=
  let ds := Nat.toDigits 16 n
  List.replicate (width - ds.length) '0' ++ ds

def escapeChar (c : Char) : List Char :=
  match c with
  | '"' => ['\\', '"']
  | '\\' => ['\\', '\\']
  | '\x08' => ['\\', 'b']
  | '\x0C' => ['\\', 'f']
  | '\n' => ['\\', 'n']
  | '\r' => ['\\', 'r']
  | '\t' => ['\\', 't']
  | c => if c.toNat < 0x20 then '\\' :: 'u' :: hexDigits 4 c.toNat else [c]

def quoted (s : String) : String := String.ofList ('"' :: s.toList.flatMap escapeChar ++ ['"'])

/-- the break before what stands at a level -/
def newLine (level : Nat) : String := String.ofList ('\n' :: List.replicate (2 * level) ' ')

end Json

open Json

namespace Document

mutual
def json (level : Nat) : Document → String
  | null => "null"
  | bool b => if b then "true" else "false"
  | natural n => toString n
  | number x => x.text .json
  | character c => quoted c.toString
  | text s => quoted s
  | list [] => "[]"
  | list (x :: xs) =>
    "[" ++ newLine (level + 1) ++ json (level + 1) x ++ jsonRest (level + 1) xs ++
      newLine level ++ "]"
  | record [] => "\x7b\x7d"
  | record ((key, x) :: fs) =>
    "\x7b" ++ newLine (level + 1) ++ quoted key ++ ": " ++ json (level + 1) x ++
      jsonFields (level + 1) fs ++ newLine level ++ "\x7d"
/-- the further elements of a list -/
def jsonRest (level : Nat) : List Document → String
  | [] => ""
  | x :: xs => "," ++ newLine level ++ json level x ++ jsonRest level xs
/-- the further fields of a record -/
def jsonFields (level : Nat) : List (String × Document) → String
  | [] => ""
  | (key, x) :: fs =>
    "," ++ newLine level ++ quoted key ++ ": " ++ json level x ++ jsonFields level fs
end

end Document

end SpanishSyntax.Render
