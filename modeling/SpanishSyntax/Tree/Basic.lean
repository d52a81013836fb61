import SpanishSyntax.Text.Pieces

/-!
# Syntax trees

A node has a label, the level at which it stands and its children; a terminal node may carry
the word it stands for.  Functions on nodes go with a function on lists of nodes.
-/

namespace SpanishSyntax

structure TreeNode where
  label : String
  terminal : Bool
  level : Nat
  lexeme : Option String
  children : List TreeNode
  deriving Repr

namespace TreeNode

/-- the label and the word, `art "el"` -/
def displayLabel (n : TreeNode) : String :=
  match n.lexeme with
  | some w => n.label ++ " \"" ++ w ++ "\""
  | none => n.label

def isLeaf (n : TreeNode) : Bool := n.children.isEmpty

/-! ## terminal nodes in preorder -/

mutual
def terminals : TreeNode → List TreeNode
  | ⟨l, t, v, w, cs⟩ => (if t then [⟨l, t, v, w, cs⟩] else []) ++ terminalsList cs
def terminalsList : List TreeNode → List TreeNode
  | [] => []
  | c :: cs => terminals c ++ terminalsList cs
end

/-! ## words -/

mutual
/-- gives the terminal nodes the words in order, and returns the words left over -/
def attach (words : List String) : TreeNode → TreeNode × List String
  | ⟨l, t, v, w, cs⟩ =>
    let r := attachList (if t then words.tail else words) cs
    (⟨l, t, v, if t then words.head? else w, r.1⟩, r.2)
def attachList (words : List String) : List TreeNode → List TreeNode × List String
  | [] => ([], words)
  | c :: cs =>
    let r := attach words c
    let s := attachList r.2 cs
    (r.1 :: s.1, s.2)
end

/-! ## measures -/

mutual
def count : TreeNode → Nat
  | ⟨_, _, _, _, cs⟩ => 1 + countList cs
def countList : List TreeNode → Nat
  | [] => 0
  | c :: cs => count c + countList cs
end

mutual
/-- the number of edges on the longest way down -/
def height : TreeNode → Nat
  | ⟨_, _, _, _, cs⟩ => heightList cs
/-- one more than the tallest, zero without any -/
def heightList : List TreeNode → Nat
  | [] => 0
  | c :: cs => max (height c + 1) (heightList cs)
end

end TreeNode

/-- a tree with its numbered derivation; `approximate` marks a guess from word categories -/
structure SyntaxTree where
  root : TreeNode
  derivation : List String
  approximate : Bool
  deriving Repr

namespace SyntaxTree

def terminals (t : SyntaxTree) : List TreeNode := t.root.terminals

/-- the labels of the terminal nodes, left to right -/
def leaves (t : SyntaxTree) : List String := t.terminals.map (·.label)

def attachLexemes (t : SyntaxTree) (words : List String) : SyntaxTree :=
  { t with root := (t.root.attach words).1 }

def nodeCount (t : SyntaxTree) : Nat := t.root.count

def height (t : SyntaxTree) : Nat := t.root.height

end SyntaxTree

/-- `1. S`, `2. SN SV`, … -/
def numberedFrom (n : Nat) : List String → List String
  | [] => []
  | l :: ls => (toString n ++ ". " ++ l) :: numberedFrom (n + 1) ls

theorem length_numberedFrom (n : Nat) (ls : List String) :
    (numberedFrom n ls).length = ls.length := by
  induction ls generalizing n with
  | nil => rfl
  | cons l ls ih => simp [numberedFrom, ih]

end SpanishSyntax
