import SpanishSyntax.Fixpoint
import SpanishSyntax.Text.Blank
import SpanishSyntax.Text.WordCharacter

/-!
# Patterns

A pattern is a regular expression.  It is matched from a cursor, which divides a text into
what was read, latest first, and what is ahead; `Pattern.reach` lists the cursors at which a
match can end.  Anchors look at both sides of the cursor and read nothing.  Digits, blanks and
word characters are those of every script.
-/

namespace SpanishSyntax.Lexicon

inductive CharClass where
  | only (c : Char)
  | between (a b : Char)
  | digit
  | blank
  | wordChar
  | none
  | either (k l : CharClass)
  | except (k : CharClass)
  deriving DecidableEq, Repr

namespace CharClass

def contains : CharClass → Char → Bool
  | only a, c => c == a
  | between a b, c => a ≤ c && c ≤ b
  | digit, c => Text.isDecimalDigit c
  | blank, c => Text.isBlank c
  | wordChar, c => Text.isWordChar c
  | none, _ => false
  | either k l, c => k.contains c || l.contains c
  | except k, c => !k.contains c

/-- any character but a line feed -/
def dot : CharClass := except (only '\n')

end CharClass

inductive Anchor where
  | textStart
  | textEnd
  | wordEdge
  | insideOrOutside
  deriving DecidableEq, Repr

structure Cursor where
  before : List Char
  after : List Char
  deriving DecidableEq, Repr

def startsWord : List Char → Bool
  | [] => false
  | c :: _ => Text.isWordChar c

def Anchor.holds (a : Anchor) (c : Cursor) : Bool :=
  match a with
  | textStart => c.before.isEmpty
  | textEnd => c.after.isEmpty
  | wordEdge => startsWord c.before != startsWord c.after
  | insideOrOutside => startsWord c.before == startsWord c.after

/-- `times p low high` is `p` from `low` to `high` times, without an upper bound if `high` is
absent -/
inductive Pattern where
  | empty
  | one (k : CharClass)
  | anchor (a : Anchor)
  | seq (p q : Pattern)
  | alt (p q : Pattern)
  | times (p : Pattern) (low : Nat) (high : Option Nat)
  deriving DecidableEq, Repr

namespace Pattern

/-- all cursors reached from some of `cs`, each once -/
def spread (f : Cursor → List Cursor) (cs : List Cursor) : List Cursor :=
  (cs.flatMap f).eraseDups

def widen (f : Cursor → List Cursor) (cs : List Cursor) : List Cursor :=
  (cs ++ cs.flatMap f).eraseDups

/-- with no upper bound, one round for each character ahead is enough -/
def extraRounds (low : Nat) (high : Option Nat) (c : Cursor) : Nat :=
  match high with
  | some h => h - low
  | none => c.after.length + 1

def reach : Pattern → Cursor → List Cursor
  | empty, c => [c]
  | one k, c =>
    match c.after with
    | [] => []
    | x :: r => if k.contains x then [⟨x :: c.before, r⟩] else []
  | anchor a, c => if a.holds c then [c] else []
  | seq p q, c => spread q.reach (p.reach c)
  | alt p q, c => (p.reach c ++ q.reach c).eraseDups
  | times p low high, c =>
    settle (widen p.reach) (extraRounds low high c) (settle (spread p.reach) low [c])

/-- every way to divide a text, from its start on -/
def cursors (before : List Char) : List Char → List Cursor
  | [] => [⟨before, []⟩]
  | c :: cs => ⟨before, c :: cs⟩ :: cursors (c :: before) cs

/-- is there a match anywhere in the text -/
def occursIn (p : Pattern) (text : String) : Bool :=
  (cursors [] text.toList).any fun c => !(p.reach c).isEmpty

/-! ## size -/

end Pattern

/-- how many states an automaton over bytes takes for a class, by its kind -/
def CharClass.states : CharClass → Nat
  | only c => c.utf8Size
  | between _ _ => 4
  | digit => 160
  | blank => 40
  | wordChar => 1440
  | none => 1
  | either k l => k.states + l.states
  | except k => k.states + 10

namespace Pattern

def states : Pattern → Nat
  | empty => 0
  | one k => k.states
  | anchor _ => 1
  | seq p q => p.states + q.states
  | alt p q => p.states + q.states + 2
  | times p low high =>
    low * p.states + match high with
      | some h => (h - low) * (p.states + 1)
      | none => p.states + 1

/-- a compiled pattern has 10 MiB at 32 bytes a state -/
def statesAllowed : Nat := 327680

end Pattern

end SpanishSyntax.Lexicon
