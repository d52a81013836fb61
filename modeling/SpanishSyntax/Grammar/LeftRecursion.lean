import SpanishSyntax.Grammar.Follow

/-!
# Left recursion

`Grammar.leads` gives the nonterminals that one production can bring to the front, past
symbols that derive the empty sequence.  A nonterminal that reaches itself this way would be
expanded forever without reading anything; `Grammar.leftRecursive?` finds the first of them.
-/

namespace SpanishSyntax

namespace GrammarSets

/-- the nonterminals that can stand at the front of what `symbols` derives without reading -/
def leading (s : GrammarSets) : List Symbol → List String
  | [] => []
  | .terminal _ :: _ => []
  | .nonterminal n :: rest => n :: if s.isNullable n then s.leading rest else []

end GrammarSets

namespace Grammar

def leads (g : Grammar) (s : GrammarSets) (nonterminal : String) : List String :=
  g.productions.flatMap fun p => if p.head = nonterminal then s.leading p.body else []

def leadRound (g : Grammar) (s : GrammarSets) (reached : List String) : List String :=
  Ascending.union reached (reached.flatMap (g.leads s))

/-- everything reached in one or more steps -/
def leadClosure (g : Grammar) (s : GrammarSets) (nonterminal : String) : List String :=
  settle (g.leadRound s) (g.nonterminals.length + 1) (Ascending.ofList (g.leads s nonterminal))

/-- the first nonterminal, as declared, that reaches itself -/
def leftRecursive? (g : Grammar) (s : GrammarSets) : Option String :=
  g.nonterminals.find? fun n => n ∈ g.leadClosure s n

end Grammar

end SpanishSyntax
