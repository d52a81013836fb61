import SpanishSyntax.Ascending
import SpanishSyntax.Fixpoint
import SpanishSyntax.Grammar.Basic

/-!
# FIRST sets

The FIRST set of a sequence holds the terminals that can begin what it derives, and says
whether it derives the empty sequence.  `Grammar.firstTable` grows the sets of all nonterminals
production by production, in rounds, until a round changes nothing.
-/

namespace SpanishSyntax

structure FirstSet where
  terminals : List String
  nullable : Bool
  deriving DecidableEq, Repr

namespace FirstSet

def empty : FirstSet := ⟨[], false⟩

def union (s t : FirstSet) : FirstSet :=
  ⟨Ascending.union s.terminals t.terminals, s.nullable || t.nullable⟩

/-- does `t` bring anything that `s` lacks -/
def grows (s t : FirstSet) : Bool :=
  t.terminals.any (· ∉ s.terminals) || (t.nullable && !s.nullable)

def text (s : FirstSet) : String :=
  "\x7b" ++ Text.joined ", " (s.terminals ++ if s.nullable then ["ε"] else []) ++ "\x7d"

theorem mem_union {s t : FirstSet} {a : String} :
    a ∈ (s.union t).terminals ↔ a ∈ s.terminals ∨ a ∈ t.terminals :=
  Ascending.mem_union

end FirstSet

/-- one set for each nonterminal -/
abbrev FirstTable := List (String × FirstSet)

namespace FirstTable

def get? (t : FirstTable) (nonterminal : String) : Option FirstSet :=
  (t.find? (·.1 = nonterminal)).map (·.2)

def enlarge (t : FirstTable) (nonterminal : String) (s : FirstSet) : FirstTable :=
  t.map fun e => if e.1 = nonterminal then (e.1, e.2.union s) else e

/-- a nonterminal without a set ends the walk, and nothing past it counts -/
def firstOf (t : FirstTable) : List Symbol → FirstSet
  | [] => ⟨[], true⟩
  | .terminal a :: _ => ⟨[a], false⟩
  | .nonterminal n :: rest =>
    match t.get? n with
    | none => FirstSet.empty
    | some s =>
      if s.nullable then
        let r := t.firstOf rest
        ⟨Ascending.union s.terminals r.terminals, r.nullable⟩
      else s

end FirstTable

namespace Grammar

def firstRound (g : Grammar) (t : FirstTable) : FirstTable :=
  g.productions.foldl (fun t p => t.enlarge p.head (t.firstOf p.body)) t

/-- every round but the last adds a terminal or a nullable mark to some set -/
def firstRounds (g : Grammar) : Nat := g.nonterminals.length * (g.terminals.length + 1) + 1

def firstTable (g : Grammar) : FirstTable :=
  settle g.firstRound g.firstRounds (g.nonterminals.map fun n => (n, FirstSet.empty))

end Grammar

end SpanishSyntax
