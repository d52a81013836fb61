import SpanishSyntax.Config.Toml.Scalar
import SpanishSyntax.Config.Toml.Section

/-!
# Configuration files

A file is a sequence of lines: table headers, headers of array elements, and keys with values.
Values nest, in arrays and in inline tables, which may span lines.  `Toml.read?` gives the table
of the whole file, or nothing if the text is malformed or says a thing twice.
-/

namespace SpanishSyntax.Config.Toml

/-! ## values -/

/-- drops a comment up to the end of the line, if it holds no control characters -/
def dropComment? : List Char → Option (List Char)
  | '#' :: r =>
    match r.dropWhile isPlain with
    | [] => some []
    | '\n' :: r => some ('\n' :: r)
    | '\r' :: '\n' :: r => some ('\n' :: r)
    | _ => none
  | r => some r

/-- drops gaps, line breaks and comments; `n` bounds them -/
def dropTrivia? : Nat → List Char → Option (List Char)
  | 0, r => some r
  | n + 1, r =>
    match r with
    | ' ' :: r => dropTrivia? n r
    | '\t' :: r => dropTrivia? n r
    | '\n' :: r => dropTrivia? n r
    | '\r' :: '\n' :: r => dropTrivia? n r
    | '#' :: r => (dropComment? ('#' :: r)).bind (dropTrivia? n)
    | r => some r

def trivia? (cs : List Char) : Option (List Char) := dropTrivia? (cs.length + 1) cs

mutual
/-- a value; `n` bounds the nesting and the number of elements together -/
def value? : Nat → List Char → Option (Value × List Char)
  | 0, _ => none
  | n + 1, cs =>
    match cs with
    | '[' :: r => (elements? n r).map fun p => (.list p.1, p.2)
    | '{' :: r => (inlineEntries? n [] r).map fun p => (.table (Section.toFields p.1), p.2)
    | '"' :: _ => (string? cs).map fun p => (.text p.1, p.2)
    | '\'' :: _ => (string? cs).map fun p => (.text p.1, p.2)
    | _ => bare? cs
/-- the elements of an array, a comma behind the last one allowed -/
def elements? : Nat → List Char → Option (List Value × List Char)
  | 0, _ => none
  | n + 1, cs => do
    match ← trivia? cs with
    | ']' :: r => pure ([], r)
    | r =>
      let (v, r) ← value? n r
      match ← trivia? r with
      | ']' :: r => pure ([v], r)
      | ',' :: r => (elements? n r).map fun p => (v :: p.1, p.2)
      | _ => none
/-- the further entries of an inline table, a comma behind the last one allowed -/
def inlineEntries? : Nat → List (String × Section) → List Char →
    Option (List (String × Section) × List Char)
  | 0, _, _ => none
  | n + 1, es, cs => do
    match ← trivia? cs with
    | '}' :: r => pure (es, r)
    | r =>
      match ← key? (r.length + 1) r with
      | (path, '=' :: r) =>
        let (v, r) ← value? n (r.dropWhile isGap)
        let es ← Section.setDotted v path es
        match ← trivia? r with
        | '}' :: r => pure (es, r)
        | ',' :: r => inlineEntries? n es r
        | _ => none
      | _ => none
end

/-! ## lines -/

/-- the file so far: its entries and the path of the table that is being filled -/
structure Reading where
  entries : List (String × Section)
  path : List String

/-- what may follow on a line: gaps, a comment, and the end of the line -/
def endLine? (cs : List Char) : Option (List Char) := do
  match ← dropComment? (cs.dropWhile isGap) with
  | [] => some []
  | '\n' :: r => some r
  | '\r' :: '\n' :: r => some r
  | _ => none

def header? (s : Reading) (cs : List Char) : Option (Reading × List Char) := do
  let (path, r) ← key? (cs.length + 1) cs
  match r with
  | ']' :: r =>
    let es ← Section.descend path.dropLast (Section.openTable (path.getLastD "")) s.entries
    pure (⟨es, path⟩, r)
  | _ => none

def elementHeader? (s : Reading) (cs : List Char) : Option (Reading × List Char) := do
  let (path, r) ← key? (cs.length + 1) cs
  match r with
  | ']' :: ']' :: r =>
    let es ← Section.descend path.dropLast (Section.openElement (path.getLastD "")) s.entries
    pure (⟨es, path⟩, r)
  | _ => none

def entry? (s : Reading) (cs : List Char) : Option (Reading × List Char) := do
  let (path, r) ← key? (cs.length + 1) cs
  match r with
  | '=' :: r =>
    let r := r.dropWhile isGap
    let (v, r) ← value? (r.length + 1) r
    let es ← Section.descend s.path (Section.setDotted v path) s.entries
    pure (⟨es, s.path⟩, r)
  | _ => none

/-- one line, or the lines of one value -/
def line? (s : Reading) (cs : List Char) : Option (Reading × List Char) := do
  let (s, r) ← match cs.dropWhile isGap with
    | '[' :: '[' :: r => elementHeader? s r
    | '[' :: r => header? s r
    | [] => some (s, [])
    | '#' :: r => some (s, '#' :: r)
    | '\n' :: r => some (s, '\n' :: r)
    | '\r' :: '\n' :: r => some (s, '\n' :: r)
    | r => entry? s r
  let r ← endLine? r
  pure (s, r)

/-- `n` bounds the lines; each takes a character at least -/
def lines? : Nat → Reading → List Char → Option Reading
  | _, s, [] => some s
  | 0, _, _ :: _ => none
  | n + 1, s, c :: cs => do
    let (s, r) ← line? s (c :: cs)
    lines? n s r

/-- a byte order mark at the start does not count -/
def dropMark : List Char → List Char
  | '\uFEFF' :: r => r
  | r => r

def read? (text : String) : Option (List (String × Value)) :=
  let cs := dropMark text.toList
  (lines? cs.length ⟨[], []⟩ cs).map fun s => Section.toFields s.entries

end SpanishSyntax.Config.Toml
