import SpanishSyntax.Parse.Trace
import SpanishSyntax.Tree.Basic

/-!
# Trees replayed from traces

A `Growth` is a tree in which some nonterminals are still pending.  Each expansion of a trace
gives a body to the leftmost pending node with the expanded label, and rewrites the sentential
form at the leftmost occurrence of the nonterminal.  The replay stops at an expansion for which
no node is pending; a trace that was cut short gives the tree as far as it was expanded.
-/

namespace SpanishSyntax

inductive Growth where
  | leaf (terminal : String)
  | pending (label : String)
  | branch (label : String) (children : List Growth)
  deriving Repr

namespace Growth

def ofSymbol : Symbol → Growth
  | .terminal n => leaf n
  | .nonterminal n => pending n

mutual
/-- expands the leftmost pending node of that label -/
def expand? (label : String) (body : List Symbol) : Growth → Option Growth
  | leaf _ => none
  | pending l => if l = label then some (branch l (body.map ofSymbol)) else none
  | branch l cs => (expandList? label body cs).map (branch l)
def expandList? (label : String) (body : List Symbol) : List Growth → Option (List Growth)
  | [] => none
  | c :: cs =>
    match expand? label body c with
    | some c' => some (c' :: cs)
    | none => (expandList? label body cs).map (c :: ·)
end

mutual
def toNode (level : Nat) : Growth → TreeNode
  | leaf n => ⟨n, true, level, none, []⟩
  | pending l => ⟨l, false, level, none, []⟩
  | branch l cs => ⟨l, false, level, none, toNodeList (level + 1) cs⟩
def toNodeList (level : Nat) : List Growth → List TreeNode
  | [] => []
  | c :: cs => toNode level c :: toNodeList level cs
end

end Growth

/-- rewrites the leftmost occurrence of a nonterminal -/
def rewriteLeftmost (nonterminal : String) (body : List Symbol) : List Symbol → List Symbol
  | [] => []
  | s :: ss =>
    if s = .nonterminal nonterminal then body ++ ss
    else s :: rewriteLeftmost nonterminal body ss

/-- the tree so far, its sentential form, and the forms before it, latest first -/
structure Replay where
  growth : Growth
  form : List Symbol
  earlier : List (List Symbol)

namespace Replay

def start (label : String) : Replay := ⟨.pending label, [.nonterminal label], []⟩

def grow? (r : Replay) (nonterminal : String) (body : List Symbol) : Option Replay :=
  (r.growth.expand? nonterminal body).map fun g =>
    ⟨g, rewriteLeftmost nonterminal body r.form, r.form :: r.earlier⟩

/-- applies expansions up to the first that has no place -/
def applyAll (r : Replay) : List (String × List Symbol) → Replay
  | [] => r
  | e :: es =>
    match r.grow? e.1 e.2 with
    | none => r
    | some r' => r'.applyAll es

def forms (r : Replay) : List (List Symbol) := (r.form :: r.earlier).reverse

def toTree (r : Replay) : SyntaxTree where
  root := r.growth.toNode 0
  derivation := numberedFrom 1 (r.forms.map Symbol.sequenceText)
  approximate := false

end Replay

namespace SyntaxTree

/-- the bottom of the first stack, if the trace begins with `start` -/
def rootLabel : List Parse.TraceStep → String
  | ⟨label :: _, _, .start⟩ :: _ => label
  | _ => "S"

def replay (steps : List Parse.TraceStep) : Replay :=
  (Replay.start (rootLabel steps)).applyAll (Parse.expansions steps)

def ofTrace (steps : List Parse.TraceStep) : SyntaxTree := (replay steps).toTree

end SyntaxTree

end SpanishSyntax
