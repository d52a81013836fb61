import SpanishSyntax.Config.Value
import SpanishSyntax.Text.Numeral

/-!
# Key paths

`lexicon.rules[0].category` names a value inside nested tables and lists: identifiers joined by
dots, with indices in brackets.  Setting a value along a path makes the tables and lists on
the way and lays the value over what it finds.
-/

namespace SpanishSyntax.Config

inductive PathStep where
  | key (name : String)
  | index (i : Int)
  deriving DecidableEq, Repr

structure KeyPath where
  root : String
  steps : List PathStep
  deriving DecidableEq, Repr

namespace KeyPath

def isNameChar (c : Char) : Bool := c.isAlphanum || c == '_' || c == '-'

def isGap (c : Char) : Bool := c == ' ' || c == '\t'

def readName? (cs : List Char) : Option (String × List Char) :=
  match cs.takeWhile isNameChar with
  | [] => none
  | n => some (String.ofList n, cs.dropWhile isNameChar)

/-- indices are of 64 bits -/
def inRange (i : Int) : Bool := -9223372036854775808 ≤ i && i ≤ 9223372036854775807

def readDigits? (cs : List Char) : Option (Nat × List Char) :=
  match cs.takeWhile Char.isDigit with
  | [] => none
  | ds => some (Text.numeral 10 ds, cs.dropWhile Char.isDigit)

/-- an index and its closing bracket, with gaps around the number -/
def readIndex? (cs : List Char) : Option (Int × List Char) := do
  let (i, r) ← match cs.dropWhile isGap with
    | '-' :: r => (readDigits? r).map fun p => (-(p.1 : Int), p.2)
    | r => (readDigits? r).map fun p => ((p.1 : Int), p.2)
  match r.dropWhile isGap with
  | ']' :: r => if inRange i then some (i, r) else none
  | _ => none

/-- `n` bounds the steps; each takes two characters at least -/
def readSteps? : Nat → List Char → Option (List PathStep)
  | _, [] => some []
  | 0, _ :: _ => none
  | n + 1, '.' :: r => do
    let (name, r) ← readName? r
    (readSteps? n r).map (.key name :: ·)
  | n + 1, '[' :: r => do
    let (i, r) ← readIndex? r
    (readSteps? n r).map (.index i :: ·)
  | _ + 1, _ :: _ => none

def read? (s : String) : Option KeyPath := do
  let (root, r) ← readName? s.toList
  (readSteps? r.length r).map fun steps => ⟨root, steps⟩

/-- lays `new` over what the steps lead to -/
def setSteps (new : Value) : List PathStep → Value → Value
  | [], old => old.overlay new
  | .key name :: steps, old => old.updateField name (setSteps new steps)
  | .index i :: steps, old => old.updateElement i (setSteps new steps)

def set (p : KeyPath) (new old : Value) : Value := old.updateField p.root (setSteps new p.steps)

end KeyPath

end SpanishSyntax.Config
