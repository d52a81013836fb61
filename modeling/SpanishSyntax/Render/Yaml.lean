import SpanishSyntax.Decimal.Layout
import SpanishSyntax.Render.Document
import SpanishSyntax.Render.Yaml.Scalar

/-!
# Documents as YAML

Records and lists in block style.  The fields of a record inside another stand two columns
further to the right; a list stands below its key, in the same column, and a record in a list
begins behind the dash.  Empty lists and records are written in flow style.
-/

namespace SpanishSyntax.Render

namespace Yaml

def newLine (column : Nat) : String := String.ofList ('\n' :: margin column)

end Yaml

open Yaml

namespace Document

mutual
/-- what stands behind a dash at `column`, without the line feed at its end -/
def yamlItem (column : Nat) : Document → String
  | null => "null"
  | bool b => if b then "true" else "false"
  | natural n => toString n
  | number x => x.text .yaml
  | character c => characterScalar (column + 2) c
  | text s => scalar (column + 2) s
  | list [] => "[]"
  | list (x :: xs) => "- " ++ yamlItem (column + 2) x ++ yamlRest (column + 2) xs
  | record [] => "\x7b\x7d"
  | record ((key, x) :: fs) =>
    key ++ ":" ++ yamlValue (column + 2) x ++ yamlFields (column + 2) fs
/-- what stands behind a key at `column` -/
def yamlValue (column : Nat) : Document → String
  | list (x :: xs) =>
    newLine column ++ "- " ++ yamlItem column x ++ yamlRest column xs
  | record ((key, x) :: fs) =>
    newLine (column + 2) ++ key ++ ":" ++ yamlValue (column + 2) x ++ yamlFields (column + 2) fs
  | null => " null"
  | bool b => if b then " true" else " false"
  | natural n => " " ++ toString n
  | number x => " " ++ x.text .yaml
  | character c => " " ++ characterScalar (column + 2) c
  | text s => " " ++ scalar (column + 2) s
  | list [] => " []"
  | record [] => " \x7b\x7d"
/-- the further elements of a list -/
def yamlRest (column : Nat) : List Document → String
  | [] => ""
  | x :: xs => newLine column ++ "- " ++ yamlItem column x ++ yamlRest column xs
/-- the further fields of a record -/
def yamlFields (column : Nat) : List (String × Document) → String
  | [] => ""
  | (key, x) :: fs => newLine column ++ key ++ ":" ++ yamlValue column x ++ yamlFields column fs
end

/-- a document of its own -/
def yaml : Document → String
  | record ((key, x) :: fs) => key ++ ":" ++ yamlValue 0 x ++ yamlFields 0 fs ++ "\n"
  | list (x :: xs) => "- " ++ yamlItem 0 x ++ yamlRest 0 xs ++ "\n"
  | d => yamlItem 0 d ++ "\n"

end Document

end SpanishSyntax.Render
