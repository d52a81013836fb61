import SpanishSyntax.Decimal.Layout

/-!
# Configuration values

What a configuration file can hold, and how one value is laid over another: a table is merged
into a table key by key, anything else replaces what was there.
-/

namespace SpanishSyntax.Config

inductive Value where
  | nil
  | bool (b : Bool)
  | int (n : Int)
  | float (negative : Bool) (magnitude : Double)
  | nan
  | text (s : String)
  | list (xs : List Value)
  | table (fields : List (String × Value))
  deriving Inhabited, Repr

namespace Value

/-- the entries of a table; anything else has none -/
def fields : Value → List (String × Value)
  | table fs => fs
  | _ => []

def elements : Value → List Value
  | list xs => xs
  | _ => []

def get? (v : Value) (key : String) : Option Value := (v.fields.find? (·.1 = key)).map (·.2)

/-- writes an entry in its place, or behind the others -/
def setField (key : String) (v : Value) : List (String × Value) → List (String × Value)
  | [] => [(key, v)]
  | e :: es => if e.1 = key then (key, v) :: es else e :: setField key v es

mutual
/-- lays a value over another -/
def overlay (old : Value) : Value → Value
  | table fs => table (overlayFields old.fields fs)
  | v => v
def overlayFields (old : List (String × Value)) : List (String × Value) → List (String × Value)
  | [] => old
  | e :: es =>
    overlayFields (setField e.1 (overlay (((table old).get? e.1).getD nil) e.2) old) es
end

/-- changes the entry `key`, which is made if there is none -/
def updateField (key : String) (f : Value → Value) (v : Value) : Value :=
  table (setField key (f ((v.get? key).getD nil)) v.fields)

/-- an index from the end counts backwards; the elements missing on either side are made -/
def padded (i : Int) (xs : List Value) : Nat × List Value :=
  if 0 ≤ i then (i.toNat, xs ++ List.replicate (i.toNat + 1 - xs.length) nil)
  else if i.natAbs ≤ xs.length then (xs.length - i.natAbs, xs)
  else (0, List.replicate (i.natAbs - xs.length) nil ++ xs)

/-- changes the element `i` -/
def updateElement (i : Int) (f : Value → Value) (v : Value) : Value :=
  let p := padded i v.elements
  list (p.2.modify p.1 f)

/-! ## values as text -/

def floatText (negative : Bool) (magnitude : Double) : String :=
  (if negative then "-" else "") ++ magnitude.text .plain

end Value

end SpanishSyntax.Config
