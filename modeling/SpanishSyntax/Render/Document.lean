import SpanishSyntax.Decimal.Double

/-!
# Documents

What a structured output format is given: plain values, lists, and records whose fields keep
their order.  A single character is told apart from a text, because a format may quote it.
-/

namespace SpanishSyntax.Render

inductive Document where
  | null
  | bool (b : Bool)
  | natural (n : Nat)
  | number (x : Double)
  | character (c : Char)
  | text (s : String)
  | list (xs : List Document)
  | record (fields : List (String × Document))
  deriving Repr

namespace Document

def ofOption {α : Type} (f : α → Document) : Option α → Document
  | some a => f a
  | none => null

def ofList {α : Type} (f : α → Document) (l : List α) : Document := list (l.map f)

def texts (ss : List String) : Document := ofList text ss

end Document

end SpanishSyntax.Render
