/-!
# Parsers put together

A parser takes something off the front of a text and says what is left, or it fails.  The text in
front of it is not lost when it fails, so whoever tried it goes on from there: `orElse` tries its
second parser where the first began, and a repetition ends in front of the round that failed,
whatever that round had taken before.  Repetitions are greedy; nothing that they took is given back
for the sake of what comes behind them.
-/

namespace SpanishSyntax

abbrev TextParser (α : Type) := List Char → Option (α × List Char)

namespace TextParser

variable {α β : Type}

/-- one character of a class -/
def satisfying (p : Char → Bool) : TextParser Char
  | [] => none
  | c :: rest => if p c then some (c, rest) else none

def anyChar : TextParser Char
  | [] => none
  | c :: rest => some (c, rest)

def just (text : List Char) : TextParser (List Char) := fun cs =>
  if text.isPrefixOf cs then some (text, cs.drop text.length) else none

def atEnd : TextParser Unit
  | [] => some ((), [])
  | _ :: _ => none

def andThen (p : TextParser α) (q : TextParser β) : TextParser (α × β) := fun cs =>
  (p cs).bind fun r => (q r.2).map fun s => ((r.1, s.1), s.2)

def map (f : α → β) (p : TextParser α) : TextParser β := fun cs => (p cs).map fun r => (f r.1, r.2)

def andIgnore (p : TextParser α) (q : TextParser β) : TextParser α := map (·.1) (andThen p q)

def ignoreAnd (p : TextParser α) (q : TextParser β) : TextParser β := map (·.2) (andThen p q)

def orElse (p q : TextParser α) : TextParser α := fun cs =>
  match p cs with
  | some r => some r
  | none => q cs

def perhaps (p : TextParser α) : TextParser (Option α) :=
  orElse (map some p) fun cs => some (none, cs)

def paddedBy (p : TextParser α) (padding : TextParser β) : TextParser α :=
  andIgnore (ignoreAnd padding p) padding

/-- rounds until one fails, and what is in front of that one; a round that takes nothing would
come again and again, so none after it is tried -/
def rounds (p : TextParser α) (cs : List Char) : List α × List Char :=
  match p cs with
  | none => ([], cs)
  | some (x, rest) =>
    if rest.length < cs.length then
      let r := rounds p rest
      (x :: r.1, r.2)
    else ([x], rest)
termination_by cs.length

def repeated (p : TextParser α) : TextParser (List α) := fun cs => some (rounds p cs)

def atLeast (n : Nat) (p : TextParser (List α)) : TextParser (List α) := fun cs =>
  (p cs).bind fun r => if n ≤ r.1.length then some r else none

/-- elements with a separator between any two; a separator that no element follows is left -/
def separatedBy (p : TextParser α) (separator : TextParser β) : TextParser (List α) := fun cs =>
  match p cs with
  | none => some ([], cs)
  | some (x, rest) =>
    let r := rounds (ignoreAnd separator p) rest
    some (x :: r.1, r.2)

/-- what comes out, whatever is left -/
def parse (p : TextParser α) (cs : List Char) : Option α := (p cs).map (·.1)

end TextParser

end SpanishSyntax
