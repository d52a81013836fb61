import SpanishSyntax.Config.Value

/-!
# Tables under construction

While a configuration file is read, a table remembers how it came about, because that decides
what may still be added: a table named in a header is closed to a second header and to dotted
keys from outside, one made on the way to another is open to both, and one made by a dotted key
takes dotted keys only.  An array of tables grows at its end.
-/

namespace SpanishSyntax.Config.Toml

inductive Origin where
  | implied
  | header
  | dotted
  deriving DecidableEq, Repr

inductive Section where
  | value (v : Value)
  | table (origin : Origin) (entries : List (String × Section))
  | tables (finished : List (List (String × Section))) (last : List (String × Section))
  deriving Repr

namespace Section

def lookup (key : String) : List (String × Section) → Option Section
  | [] => none
  | e :: es => if e.1 = key then some e.2 else lookup key es

def write (key : String) (s : Section) : List (String × Section) → List (String × Section)
  | [] => [(key, s)]
  | e :: es => if e.1 = key then (key, s) :: es else e :: write key s es

abbrev Entries := List (String × Section)

/-- a change of the entries of a table, if it is allowed -/
abbrev Change := Entries → Option Entries

/-- goes down to the tables of a path, as a header does, and applies a change there -/
def descend : List String → Change → Change
  | [], f, es => f es
  | key :: path, f, es =>
    match lookup key es with
    | none => (descend path f []).map fun sub => write key (table .implied sub) es
    | some (table origin sub) =>
      (descend path f sub).map fun sub => write key (table origin sub) es
    | some (tables finished last) =>
      (descend path f last).map fun sub => write key (tables finished sub) es
    | some (value _) => none

/-- names a table in a header: a new one, or one only implied so far -/
def openTable (key : String) : Change := fun es =>
  match lookup key es with
  | none => some (write key (table .header []) es)
  | some (table .implied sub) => some (write key (table .header sub) es)
  | _ => none

/-- starts another table of an array of tables -/
def openElement (key : String) : Change := fun es =>
  match lookup key es with
  | none => some (write key (tables [] []) es)
  | some (tables finished last) => some (write key (tables (finished ++ [last]) []) es)
  | _ => none

/-- sets a value under a dotted key -/
def setDotted (v : Value) : List String → Change
  | [], _ => none
  | [key], es =>
    match lookup key es with
    | none => some (write key (value v) es)
    | some _ => none
  | key :: path, es =>
    match lookup key es with
    | none => (setDotted v path []).map fun sub => write key (table .dotted sub) es
    | some (table .header _) => none
    | some (table origin sub) =>
      (setDotted v path sub).map fun sub => write key (table origin sub) es
    | some _ => none

/-! ## finished tables -/

mutual
def toValue : Section → Value
  | value v => v
  | table _ es => .table (toFields es)
  | tables finished last => .list (toTables finished ++ [.table (toFields last)])
def toFields : List (String × Section) → List (String × Value)
  | [] => []
  | (k, s) :: es => (k, toValue s) :: toFields es
def toTables : List (List (String × Section)) → List Value
  | [] => []
  | t :: ts => .table (toFields t) :: toTables ts
end

end Section

end SpanishSyntax.Config.Toml
