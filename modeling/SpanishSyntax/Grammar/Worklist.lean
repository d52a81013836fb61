import SpanishSyntax.Grammar.LeftRecursion

/-!
# Left recursion by a worklist

`Grammar.leadClosure` collects all that a nonterminal leads to and then looks for the nonterminal in
it.  The search here takes one nonterminal after the other from a worklist that grows on the way,
and ends at the first that is the one it started from.  It is described by what it ends with, so
nothing is said of a search that never ends.
-/

namespace SpanishSyntax

/-- with the names seen so far and those still to come, the search ends with the answer whether it
came back to `start`; the name that was put on the list last comes first -/
inductive SearchEnds (next : String → List String) (start : String) :
    List String → List String → Bool → Prop where
  | exhausted {seen : List String} : SearchEnds next start seen [] false
  | back {seen pending : List String} : SearchEnds next start seen (start :: pending) true
  | skip {seen pending : List String} {n : String} {answer : Bool} (hn : n ≠ start)
      (hseen : n ∈ seen) (rest : SearchEnds next start seen pending answer) :
      SearchEnds next start seen (n :: pending) answer
  | visit {seen pending : List String} {n : String} {answer : Bool} (hn : n ≠ start)
      (hseen : n ∉ seen)
      (rest : SearchEnds next start (Ascending.insert n seen) ((next n).reverse ++ pending) answer) :
      SearchEnds next start seen (n :: pending) answer

/-- searches one after the other, up to the first that comes back -/
inductive FindsFirst (ends : String → Bool → Prop) : List String → Option String → Prop where
  | none : FindsFirst ends [] none
  | found {n : String} {ns : List String} (h : ends n true) : FindsFirst ends (n :: ns) (some n)
  | later {n : String} {ns : List String} {r : Option String} (h : ends n false)
      (rest : FindsFirst ends ns r) : FindsFirst ends (n :: ns) r

namespace Grammar

/-- what one step brings to the front, each name once -/
def leadingSet (g : Grammar) (s : GrammarSets) (nonterminal : String) : List String :=
  Ascending.ofList (g.leads s nonterminal)

/-- the search from `start` ends with the answer -/
def LeadsBack (g : Grammar) (s : GrammarSets) (start : String) (answer : Bool) : Prop :=
  SearchEnds (g.leadingSet s) start [] (g.leadingSet s start).reverse answer

/-- the searches of all nonterminals, as declared, end with `r` -/
def LeftRecursionSearch (g : Grammar) (s : GrammarSets) (r : Option String) : Prop :=
  FindsFirst (g.LeadsBack s) g.nonterminals r

end Grammar

end SpanishSyntax
