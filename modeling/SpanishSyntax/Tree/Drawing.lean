import SpanishSyntax.Tree.Basic

/-!
# Trees drawn with lines

One line for each node, in preorder, four columns further to the right for every level; the
strokes in these columns show where the parent's other children go on.
-/

namespace SpanishSyntax

namespace TreeNode

mutual
/-- the lines of a node below `margin`; `last` if no sibling follows -/
def drawing (margin : String) (last : Bool) : TreeNode → List String
  | ⟨l, t, v, w, cs⟩ =>
    (margin ++ (if last then "└── " else "├── ") ++ (⟨l, t, v, w, cs⟩ : TreeNode).displayLabel) ::
      drawingList (margin ++ if last then "    " else "│   ") cs
def drawingList (margin : String) : List TreeNode → List String
  | [] => []
  | c :: cs => drawing margin cs.isEmpty c ++ drawingList margin cs
end

end TreeNode

namespace SyntaxTree

def drawing (t : SyntaxTree) : List String :=
  (t.root.displayLabel ++ if t.approximate then " (approximate)" else "") ::
    TreeNode.drawingList "" t.root.children

def drawn (t : SyntaxTree) : String := Text.unlines t.drawing

end SyntaxTree

end SpanishSyntax
