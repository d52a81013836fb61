import SpanishSyntax.Lexicon.Pattern.Basic
import SpanishSyntax.Lexicon.Regexes
import SpanishSyntax.Text.Numeral

/-!
# Reading patterns

The written form of patterns: literals, `.`, classes in brackets, `\d` `\s` `\w` and their
opposites, escapes, groups, alternatives, anchors, and the repetitions `*` `+` `?` `{m}` `{m,}`
`{m,n}`, each greedy or lazy.  `Pattern.read?` refuses everything else: look-around and
back-references, but also flags, properties of characters, and classes that are named or combined,
which a larger library has.  A group is read into a level of its own, so the reader goes through
the text once, from left to right.

`Pattern.regexes` is the library of regular expressions that a program takes, where the classifier
leaves it open.  It limits the size of a pattern, but not how deep groups are nested.
-/

namespace SpanishSyntax.Lexicon

/-! ## escapes -/

inductive Escaped where
  | char (c : Char)
  | class (k : CharClass)
  | anchor (a : Anchor)
  deriving DecidableEq, Repr

namespace Escaped

/-- a code point up to the closing brace -/
def readBraced? (cs : List Char) : Option (Escaped × List Char) :=
  match cs.dropWhile (· ≠ '}') with
  | _ :: r => (Text.namedChar? (cs.takeWhile (· ≠ '}'))).map fun c => (char c, r)
  | [] => none

/-- a code point in braces, or in `width` digits -/
def readHex? (width : Nat) : List Char → Option (Escaped × List Char)
  | '{' :: r => readBraced? r
  | r =>
    if r.length < width then none
    else (Text.namedChar? (r.take width)).map fun c => (char c, r.drop width)

/-- punctuation stands for itself after a backslash; letters and digits do not -/
def standsForItself (c : Char) : Bool :=
  c.toNat < 128 && !c.isAlphanum && c != '<' && c != '>'

/-- what one character names after a backslash -/
def ofChar? : Char → Option Escaped
  | 'd' => some (.class .digit)
  | 'D' => some (.class (.except .digit))
  | 's' => some (.class .blank)
  | 'S' => some (.class (.except .blank))
  | 'w' => some (.class .wordChar)
  | 'W' => some (.class (.except .wordChar))
  | 'A' => some (.anchor .textStart)
  | 'z' => some (.anchor .textEnd)
  | 'b' => some (.anchor .wordEdge)
  | 'B' => some (.anchor .insideOrOutside)
  | 'a' => some (.char '\x07')
  | 'f' => some (.char '\x0C')
  | 't' => some (.char '\t')
  | 'n' => some (.char '\n')
  | 'r' => some (.char '\r')
  | 'v' => some (.char '\x0B')
  | c => if standsForItself c then some (.char c) else none

/-- the digits of a code point without braces, by the letter in front of it -/
def codeWidth? : Char → Option Nat
  | 'x' => some 2
  | 'u' => some 4
  | 'U' => some 8
  | _ => none

/-- what comes after a backslash -/
def read? : List Char → Option (Escaped × List Char)
  | [] => none
  | c :: r =>
    match codeWidth? c with
    | some width => readHex? width r
    | none => (ofChar? c).map fun e => (e, r)

end Escaped

/-! ## classes in brackets -/

namespace CharClass

def ofItems : List CharClass → CharClass
  | [] => none
  | [k] => k
  | k :: ks => either k (ofItems ks)

/-- one member of a class, not yet part of a range -/
def readMember? : List Char → Option (Escaped × List Char)
  | [] => Option.none
  | '\\' :: r => Escaped.read? r
  | c :: r => some (.char c, r)

def ofMember? : Escaped → Option CharClass
  | .char c => some (only c)
  | .class k => some k
  | .anchor _ => Option.none

def range? : Escaped → Escaped → Option CharClass
  | .char a, .char b => if a ≤ b then some (between a b) else Option.none
  | _, _ => Option.none

/-- a hyphen behind a member, unless it ends the class or begins an operation -/
def beginsRange : List Char → Bool
  | c :: d :: _ => c == '-' && d != ']' && d != '-'
  | _ => false

/-- a member, or a range if a hyphen and another member follow -/
def readItem? (cs : List Char) : Option (CharClass × List Char) := do
  let (first, r) ← readMember? cs
  if beginsRange r then do
    let (last, r) ← readMember? r.tail
    let k ← range? first last
    pure (k, r)
  else do
    let k ← ofMember? first
    pure (k, r)

/-- `&&`, `--` and `~~` combine classes, and `[:` begins a class that is named -/
def beginsOperation : List Char → Bool
  | c :: d :: _ => c == '[' && d == ':' || c == d && (c == '&' || c == '-' || c == '~')
  | _ => false

/-- is the class negated -/
def readNegation : List Char → Bool × List Char
  | '^' :: r => (true, r)
  | cs => (false, cs)

/-- at the start of a class a bracket, or a run of hyphens, stands for itself -/
def readLeading : List Char → List CharClass × List Char
  | ']' :: r => ([only ']'], r)
  | cs => ((cs.takeWhile (· == '-')).map only, cs.dropWhile (· == '-'))

/-- the members of a class from behind its start on; operations and named classes are refused, any
other bracket nests -/
def readItems? : Nat → List CharClass → List Char → Option (CharClass × List Char)
  | 0, _, _ => Option.none
  | n + 1, items, cs =>
    if beginsOperation cs then Option.none
    else match cs with
      | [] => Option.none
      | ']' :: r => some (ofItems items.reverse, r)
      | '[' :: r => do
        let (k, r) ← openClass? n r
        readItems? n (k :: items) r
      | _ => do
        let (k, r) ← readItem? cs
        readItems? n (k :: items) r
where
  openClass? : Nat → List Char → Option (CharClass × List Char)
    | 0, _ => Option.none
    | n + 1, cs =>
      let (negated, r) := readNegation cs
      let (items, r) := readLeading r
      (readItems? n items r).map fun (k, r) => (if negated then except k else k, r)

def read? (cs : List Char) : Option (CharClass × List Char) :=
  readItems?.openClass? (2 * cs.length + 2) cs

end CharClass

namespace Pattern

/-! ## repetitions -/

/-- the greatest count that can be written -/
def countLimit : Nat := 4294967295

/-- a decimal count with blanks around it -/
def readCount? (cs : List Char) : Option Nat × List Char :=
  let r := cs.dropWhile Text.isBlank
  let ds := r.takeWhile Char.isDigit
  let value := Text.numeral 10 ds
  (if ds ≠ [] ∧ value ≤ countLimit then some value else none,
    (r.dropWhile Char.isDigit).dropWhile Text.isBlank)

/-- behind the comma, the upper bound or none -/
def readHigh? (low : Nat) (cs : List Char) : Option (Option Nat × List Char) :=
  match cs.dropWhile Text.isBlank with
  | '}' :: r => some (none, r)
  | _ =>
    match readCount? cs with
    | (some high, '}' :: r) => if low ≤ high then some (some high, r) else none
    | _ => none

/-- `m}`, `m,}` or `m,n}` with `m ≤ n` -/
def readCounts? (cs : List Char) : Option (Nat × Option Nat × List Char) :=
  match readCount? cs with
  | (some low, '}' :: r) => some (low, some low, r)
  | (some low, ',' :: r) => (readHigh? low r).map fun (high, r) => (low, high, r)
  | _ => none

def dropLazy : List Char → List Char
  | '?' :: r => r
  | r => r

/-! ## groups -/

/-- a group that is being read: its finished branches and the items of the current one, both
latest first -/
structure Level where
  branches : List Pattern
  items : List Pattern
  deriving Repr

namespace Level

def fresh : Level := ⟨[], []⟩

def sequence : List Pattern → Pattern
  | [] => .empty
  | [p] => p
  | p :: ps => .seq p (sequence ps)

def alternation : Pattern → List Pattern → Pattern
  | p, [] => p
  | p, q :: qs => .alt p (alternation q qs)

def branch (l : Level) : Pattern := sequence l.items.reverse

def close (l : Level) : Pattern :=
  match (l.branch :: l.branches).reverse with
  | [] => .empty
  | p :: ps => alternation p ps

def push (l : Level) (p : Pattern) : Level := { l with items := p :: l.items }

def nextBranch (l : Level) : Level := ⟨l.branch :: l.branches, []⟩

/-- repeats the item read last -/
def repeatLast? (l : Level) (low : Nat) (high : Option Nat) : Option Level :=
  match l.items with
  | [] => none
  | p :: ps => some { l with items := .times p low high :: ps }

end Level

def isNameStart (c : Char) : Bool := c == '_' || Text.isLetter c

def isNameChar (c : Char) : Bool :=
  c == '_' || c == '.' || c == '[' || c == ']' || Text.isAlphanumeric c

/-- the name of a group up to the angle bracket -/
def readName? (cs : List Char) : Option (List Char × List Char) :=
  match cs.takeWhile (· ≠ '>'), cs.dropWhile (· ≠ '>') with
  | n :: ns, _ :: r => if isNameStart n && ns.all isNameChar then some (n :: ns, r) else none
  | _, _ => none

/-- what a group begins with after its parenthesis, and its name -/
def readGroupHead? : List Char → Option (Option (List Char) × List Char)
  | '?' :: ':' :: r => some (none, r)
  | '?' :: 'P' :: '<' :: r => (readName? r).map fun (n, r) => (some n, r)
  | '?' :: '<' :: r => (readName? r).map fun (n, r) => (some n, r)
  | '?' :: _ => none
  | r => some (none, r)

/-! ## whole patterns -/

def ofEscaped : Escaped → Pattern
  | .char c => .one (.only c)
  | .class k => .one k
  | .anchor a => .anchor a

/-- what a pattern is written with -/
inductive Construct where
  | openGroup (name : Option (List Char))
  | closeGroup
  | bar
  | times (low : Nat) (high : Option Nat)
  | item (p : Pattern)
  deriving Repr

/-- reads one construct off the front of the text -/
def Construct.read? : List Char → Option (Construct × List Char)
  | [] => none
  | '(' :: r => (readGroupHead? r).map fun (name, r) => (openGroup name, r)
  | ')' :: r => some (closeGroup, r)
  | '|' :: r => some (bar, r)
  | '*' :: r => some (times 0 none, dropLazy r)
  | '+' :: r => some (times 1 none, dropLazy r)
  | '?' :: r => some (times 0 (some 1), dropLazy r)
  | '{' :: r => (readCounts? r).map fun (low, high, r) => (times low high, dropLazy r)
  | '[' :: r => (CharClass.read? r).map fun (k, r) => (item (.one k), r)
  | '\\' :: r => (Escaped.read? r).map fun (e, r) => (item (ofEscaped e), r)
  | '.' :: r => some (item (.one .dot), r)
  | '^' :: r => some (item (.anchor .textStart), r)
  | '$' :: r => some (item (.anchor .textEnd), r)
  | c :: r => some (item (.one (.only c)), r)

structure Reading where
  names : List (List Char)
  level : Level
  outer : List Level
  deriving Repr

namespace Reading

def start : Reading := ⟨[], .fresh, []⟩

def openGroup? (s : Reading) (name : Option (List Char)) : Option Reading :=
  match name with
  | none => some ⟨s.names, .fresh, s.level :: s.outer⟩
  | some n => if n ∈ s.names then none else some ⟨n :: s.names, .fresh, s.level :: s.outer⟩

def closeGroup? (s : Reading) : Option Reading :=
  match s.outer with
  | [] => none
  | l :: ls => some ⟨s.names, l.push s.level.close, ls⟩

def take? (s : Reading) : Construct → Option Reading
  | .openGroup name => s.openGroup? name
  | .closeGroup => s.closeGroup?
  | .bar => some { s with level := s.level.nextBranch }
  | .times low high => (s.level.repeatLast? low high).map fun l => { s with level := l }
  | .item p => some { s with level := s.level.push p }

/-- `n` bounds the constructs; each takes a character at least -/
def run? : Nat → Reading → List Char → Option Pattern
  | _, s, [] => if s.outer.isEmpty then some s.level.close else none
  | 0, _, _ :: _ => none
  | n + 1, s, c :: cs =>
    match Construct.read? (c :: cs) with
    | none => none
    | some (k, r) =>
      match s.take? k with
      | none => none
      | some s => run? n s r

end Reading

def read? (cs : List Char) : Option Pattern := Reading.run? cs.length .start cs

/-- a pattern that is read and not too large to be compiled -/
def compile? (cs : List Char) : Option Pattern :=
  match read? cs with
  | some p => if p.states ≤ statesAllowed then some p else none
  | none => none

/-- the reader as a library of regular expressions -/
def regexes : Regexes :=
  ⟨fun source => (compile? source.toList).map fun p text => p.occursIn text⟩

end Pattern

end SpanishSyntax.Lexicon
