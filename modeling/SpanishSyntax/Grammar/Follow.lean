import SpanishSyntax.Grammar.First

/-!
# Lookaheads and FOLLOW sets

A lookahead is the next terminal or the end of the input, written `$`.  The FOLLOW set of a
nonterminal holds the lookaheads that can stand after it.  `Grammar.followTable` grows the sets
in rounds, as `Grammar.firstTable` does.
-/

namespace SpanishSyntax

inductive Lookahead where
  | terminal (name : String)
  | endOfInput
  deriving DecidableEq, Repr

namespace Lookahead

/-- what a parser sees of the unread tokens -/
def ofRest : List String → Lookahead
  | [] => .endOfInput
  | t :: _ => .terminal t

def text : Lookahead → String
  | .terminal n => n
  | .endOfInput => "$"

/-- terminals by name, the end of the input last -/
def before : Lookahead → Lookahead → Bool
  | .terminal a, .terminal b => a < b
  | .terminal _, .endOfInput => true
  | .endOfInput, _ => false

instance : LT Lookahead := ⟨fun a b => a.before b = true⟩

instance : DecidableLT Lookahead := fun a b => inferInstanceAs (Decidable (a.before b = true))

theorem terminal_lt_terminal {a b : String} :
    Lookahead.terminal a < Lookahead.terminal b ↔ a < b := by
  show (decide (a < b) = true) ↔ a < b
  exact decide_eq_true_iff

theorem terminal_lt_endOfInput (a : String) :
    Lookahead.terminal a < Lookahead.endOfInput := rfl

end Lookahead

/-- one ascending set of lookaheads for each nonterminal -/
abbrev FollowTable := List (String × List Lookahead)

namespace FollowTable

def get? (t : FollowTable) (nonterminal : String) : Option (List Lookahead) :=
  (t.find? (·.1 = nonterminal)).map (·.2)

def get (t : FollowTable) (nonterminal : String) : List Lookahead :=
  (t.get? nonterminal).getD []

def enlarge (t : FollowTable) (nonterminal : String) (s : List Lookahead) : FollowTable :=
  t.map fun e => if e.1 = nonterminal then (e.1, Ascending.union e.2 s) else e

/-- what can stand after a symbol of a body with `rest` behind it -/
def after (firsts : FirstTable) (t : FollowTable) (head : String) (rest : List Symbol) :
    List Lookahead :=
  let f := firsts.firstOf rest
  f.terminals.map .terminal ++ if f.nullable then t.get head else []

def walk (firsts : FirstTable) (head : String) (t : FollowTable) : List Symbol → FollowTable
  | [] => t
  | .terminal _ :: rest => walk firsts head t rest
  | .nonterminal n :: rest => walk firsts head (t.enlarge n (t.after firsts head rest)) rest

end FollowTable

namespace Grammar

def followRound (g : Grammar) (firsts : FirstTable) (t : FollowTable) : FollowTable :=
  g.productions.foldl (fun t p => FollowTable.walk firsts p.head t p.body) t

/-- every round but the last adds a lookahead to some set -/
def followRounds (g : Grammar) : Nat := g.nonterminals.length * (g.terminals.length + 1) + 1

def followSeed (g : Grammar) : FollowTable :=
  g.nonterminals.map fun n => (n, if n = g.start then [.endOfInput] else [])

def followTable (g : Grammar) (firsts : FirstTable) : FollowTable :=
  settle (g.followRound firsts) g.followRounds g.followSeed

end Grammar

/-- FIRST and FOLLOW of every nonterminal -/
structure GrammarSets where
  first : FirstTable
  follow : FollowTable
  deriving DecidableEq, Repr

namespace GrammarSets

def ofGrammar (g : Grammar) : GrammarSets := ⟨g.firstTable, g.followTable g.firstTable⟩

def isNullable (s : GrammarSets) (nonterminal : String) : Bool :=
  match s.first.get? nonterminal with
  | some f => f.nullable
  | none => false

def firstOf (s : GrammarSets) (symbols : List Symbol) : FirstSet := s.first.firstOf symbols

end GrammarSets

end SpanishSyntax
