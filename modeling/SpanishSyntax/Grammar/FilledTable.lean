import SpanishSyntax.Entries
import SpanishSyntax.Grammar.Table

/-!
# Tables filled production by production

`ParseTable` computes a cell when it is asked for.  Here the cells are kept: a map of rows, each a
map from lookaheads to the indices of productions, is filled by going through the productions once.
A production is put into the cells of the terminals in FIRST of its body and then, if the body
derives the empty sequence, into those of FOLLOW of its head; a cell that both of them lead to is
visited twice, and an index that is in a cell already is not put there again.

The views of the table, and what the policies do with it, are read off the map.
-/

namespace SpanishSyntax

abbrev TableRow := Entries Lookahead (List Nat)

structure FilledTable where
  grammar : Grammar
  sets : GrammarSets
  policy : ConflictPolicy
  cells : Entries String TableRow
  deriving DecidableEq, Repr

/-- the lookaheads of a production in the order in which its cells are visited -/
def GrammarSets.visits (s : GrammarSets) (p : Production) : List Lookahead :=
  let first := s.firstOf p.body
  let lookaheads := first.terminals.map .terminal
  if first.nullable then
    match s.follow.get? p.head with
    | some follow => lookaheads ++ follow
    | none => lookaheads
  else lookaheads

namespace FilledTable

/-! ## filling -/

def addIndex (index : Nat) (cell : List Nat) : List Nat :=
  if index ∈ cell then cell else cell ++ [index]

def fillRow (index : Nat) (lookaheads : List Lookahead) (row : TableRow) : TableRow :=
  lookaheads.foldl (fun row la => row.put la fun cell => addIndex index (cell.getD [])) row

/-- a production without lookaheads leaves an empty row behind -/
def addProduction (s : GrammarSets) (cells : Entries String TableRow) (p : Production × Nat) :
    Entries String TableRow :=
  cells.put p.1.head fun row => fillRow p.2 (s.visits p.1) (row.getD [])

def fill (g : Grammar) (s : GrammarSets) : Entries String TableRow :=
  g.productions.zipIdx.foldl (addProduction s) []

/-! ## views -/

def cell (f : FilledTable) (nonterminal : String) (la : Lookahead) : List Nat :=
  ((f.cells.get? nonterminal).bind fun row => row.get? la).getD []

def productionsAt (f : FilledTable) (cell : List Nat) : List Production :=
  cell.filterMap fun i => f.grammar.productions[i]?

def candidates (f : FilledTable) (nonterminal : String) (la : Lookahead) : List Production :=
  f.productionsAt (f.cell nonterminal la)

def predict (f : FilledTable) (nonterminal : String) (la : Lookahead) : Option Production :=
  (f.cell nonterminal la).head?.bind fun i => f.grammar.productions[i]?

/-- row by row, as the map has them -/
def conflicts (f : FilledTable) : List Conflict :=
  f.cells.flatMap fun (n, row) =>
    (row.filter fun (_, cell) => 1 < cell.length).map fun (la, cell) =>
      ⟨n, la, f.productionsAt cell⟩

def isLL1 (f : FilledTable) : Bool :=
  f.cells.all fun (_, row) => row.all fun (_, cell) => cell.length ≤ 1

/-- the nonterminals as declared, those without a row left out -/
def entries (f : FilledTable) : List (String × Lookahead × List Production) :=
  f.grammar.nonterminals.flatMap fun n =>
    match f.cells.get? n with
    | none => []
    | some row => row.map fun (la, cell) => (n, la, f.productionsAt cell)

/-! ## building -/

def assemble (g : Grammar) (s : GrammarSets) (policy : ConflictPolicy) :
    Except ParseTable.Refusal FilledTable :=
  let f : FilledTable := ⟨g, s, policy, fill g s⟩
  if policy = .reject ∧ f.conflicts ≠ [] then .error (.conflicts f.conflicts) else .ok f

def build (g : Grammar) (policy : ConflictPolicy) : Except ParseTable.Refusal FilledTable :=
  let s := GrammarSets.ofGrammar g
  match g.leftRecursive? s with
  | some n => .error (.leftRecursive n)
  | none => assemble g s policy

end FilledTable

end SpanishSyntax
