import SpanishSyntax.Automaton.Run
import SpanishSyntax.Grammar.Table
import SpanishSyntax.Render.Format
import SpanishSyntax.Semantic.Stem
import SpanishSyntax.Text.Column

/-!
# Listings

What the commands show: a grammar with its sets, its prediction table and the conflicts in it;
the run of an automaton; stems; the output formats.
-/

namespace SpanishSyntax

/-- as a title shows it -/
def ConflictPolicy.title : ConflictPolicy → String
  | firstListed => "FirstListed"
  | reject => "Reject"

namespace ParseTable

def grammarLines (t : ParseTable) : List String :=
  ("grammar (start " ++ t.grammar.start ++ "):") ::
    t.grammar.productions.map fun p => "  " ++ p.text

def firstText (t : ParseTable) (nonterminal : String) : String :=
  ((t.sets.first.get? nonterminal).map FirstSet.text).getD ""

def followText (t : ParseTable) (nonterminal : String) : String :=
  "\x7b" ++ Text.joined ", " ((t.sets.follow.get nonterminal).map Lookahead.text) ++ "\x7d"

/-- the sets stand in a column of their own -/
def setLines (t : ParseTable) : List String :=
  let width := (t.grammar.nonterminals.map String.length).foldl max 0
  "sets:" :: t.grammar.nonterminals.map fun n =>
    "  " ++ Text.alignLeft width n ++ "  FIRST " ++ t.firstText n ++ "  FOLLOW " ++ t.followText n

def cellLines (t : ParseTable) : List String :=
  "table:" :: t.entries.map fun (n, la, ps) =>
    "  [" ++ n ++ ", " ++ la.text ++ "] → " ++ Text.joined " | " (ps.map Production.bodyText)

def conflictLines (t : ParseTable) : List String :=
  match t.conflicts with
  | [] => ["conflicts: none (grammar is LL(1))"]
  | cs => ("conflicts (" ++ toString cs.length ++ ", policy " ++ t.policy.title ++ "):") ::
    cs.map fun c => "  " ++ c.text

def listing (t : ParseTable) : String :=
  Text.unlines (t.grammarLines ++ [""] ++ t.setLines ++ [""] ++ t.cellLines ++ [""] ++
    t.conflictLines)

end ParseTable

namespace Automaton

def Transition.text (t : Transition) : String :=
  t.state ++ " --" ++ t.symbol.toString ++ "--> " ++ t.next

def verdict : Option Halt → String
  | none => "accepted"
  | some h => "rejected: " ++ h.message

def listing (a : Automaton) (r : Simulation) : String :=
  Text.unlines ([a.name ++ ": " ++ a.description] ++
    Text.numberedLines 1 (r.steps.map Transition.text) ++ [verdict r.halt])

end Automaton

def Semantic.stemListing (words : List String) : String :=
  Text.unlines (words.map fun w => w ++ " → " ++ stem w)

def Render.Formats.listing (fs : Formats) : String :=
  Text.unlines (["Available output formats:", ""] ++
    fs.entries.flatMap fun f => ["  " ++ f.name, "    " ++ f.description, ""])

end SpanishSyntax
