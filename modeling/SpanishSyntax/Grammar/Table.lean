import SpanishSyntax.Grammar.LeftRecursion

/-!
# Prediction tables

Each production is selected by a set of lookaheads: the terminals in FIRST of its body and, when
the body derives the empty sequence, FOLLOW of its head.  The cell of a nonterminal and a
lookahead holds the productions that the lookahead selects, in the order of the grammar.  A
cell with several candidates is a conflict; either the first one listed wins, or the table is
refused.  Left recursion is refused in any case.
-/

namespace SpanishSyntax

inductive ConflictPolicy where
  | firstListed
  | reject
  deriving DecidableEq, Repr

namespace ConflictPolicy

def name : ConflictPolicy → String
  | firstListed => "first-listed"
  | reject => "reject"

def ofName? : String → Option ConflictPolicy
  | "first-listed" => some firstListed
  | "reject" => some reject
  | _ => none

end ConflictPolicy

structure Conflict where
  nonterminal : String
  lookahead : Lookahead
  productions : List Production
  deriving DecidableEq, Repr

def Conflict.text (c : Conflict) : String :=
  "[" ++ c.nonterminal ++ ", " ++ c.lookahead.text ++ "] has " ++
    toString c.productions.length ++ " candidates (" ++
    Text.joined " | " (c.productions.map Production.text) ++ ")"

/-- a production with its index in the grammar and the lookaheads that select it -/
structure Selection where
  index : Nat
  production : Production
  lookaheads : List Lookahead
  deriving DecidableEq, Repr

def GrammarSets.selectors (s : GrammarSets) (p : Production) : List Lookahead :=
  let f := s.firstOf p.body
  Ascending.union (f.terminals.map .terminal) (if f.nullable then s.follow.get p.head else [])

structure ParseTable where
  grammar : Grammar
  sets : GrammarSets
  policy : ConflictPolicy
  selections : List Selection
  deriving DecidableEq, Repr

namespace ParseTable

inductive Refusal where
  | leftRecursive (nonterminal : String)
  | conflicts (cs : List Conflict)
  deriving DecidableEq, Repr

def Refusal.message : Refusal → String
  | .leftRecursive n => s!"nonterminal '{n}' is left-recursive"
  | .conflicts cs => "grammar is not LL(1): " ++ Text.joined "; " (cs.map Conflict.text)

def assemble (g : Grammar) (s : GrammarSets) (policy : ConflictPolicy) : ParseTable :=
  ⟨g, s, policy, g.productions.zipIdx.map fun p => ⟨p.2, p.1, s.selectors p.1⟩⟩

/-! ## cells -/

def cell (t : ParseTable) (nonterminal : String) (la : Lookahead) : List Selection :=
  t.selections.filter fun s => s.production.head = nonterminal ∧ la ∈ s.lookaheads

def candidates (t : ParseTable) (nonterminal : String) (la : Lookahead) : List Production :=
  (t.cell nonterminal la).map (·.production)

/-- what the parser applies -/
def predict (t : ParseTable) (nonterminal : String) (la : Lookahead) : Option Production :=
  (t.candidates nonterminal la).head?

/-- the lookaheads of a row's filled cells -/
def row (t : ParseTable) (nonterminal : String) : List Lookahead :=
  t.selections.foldl (fun l s =>
    if s.production.head = nonterminal then Ascending.union l s.lookaheads else l) []

/-- the filled cells, nonterminals as declared -/
def entries (t : ParseTable) : List (String × Lookahead × List Production) :=
  t.grammar.nonterminals.flatMap fun n => (t.row n).map fun la => (n, la, t.candidates n la)

/-- the cells with several candidates, nonterminals by name -/
def conflicts (t : ParseTable) : List Conflict :=
  (Ascending.ofList t.grammar.nonterminals).flatMap fun n =>
    (t.row n).filterMap fun la =>
      if 1 < (t.candidates n la).length then some ⟨n, la, t.candidates n la⟩ else none

def isLL1 (t : ParseTable) : Bool :=
  t.entries.all fun e => e.2.2.length ≤ 1

def build (g : Grammar) (policy : ConflictPolicy) : Except Refusal ParseTable :=
  let s := GrammarSets.ofGrammar g
  match g.leftRecursive? s with
  | some n => .error (.leftRecursive n)
  | none =>
    let t := assemble g s policy
    if policy = .reject ∧ t.conflicts ≠ [] then .error (.conflicts t.conflicts)
    else .ok t

/-! ## what a prediction is -/

theorem mem_cell {t : ParseTable} {n : String} {la : Lookahead} {s : Selection} :
    s ∈ t.cell n la ↔ s ∈ t.selections ∧ s.production.head = n ∧ la ∈ s.lookaheads := by
  simp [cell]

theorem selection_of_predict {t : ParseTable} {n : String} {la : Lookahead} {p : Production}
    (h : t.predict n la = some p) :
    p.head = n ∧ ∃ s ∈ t.selections, s.production = p := by
  obtain ⟨s, hs, rfl⟩ := List.mem_map.mp (List.mem_of_mem_head? h)
  obtain ⟨h1, h2, _⟩ := mem_cell.mp hs
  exact ⟨h2, s, h1, rfl⟩

end ParseTable

end SpanishSyntax
