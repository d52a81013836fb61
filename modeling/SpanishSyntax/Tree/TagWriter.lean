import SpanishSyntax.Tree.Markup

/-!
# Tags written one after the other

The writer keeps what it wrote and the level of the next tag.  An opening tag puts the level up, a
closing tag down again, and at level zero there is nothing to close.  `SyntaxTree.markup` gives the
same text with the levels passed down the tree.
-/

namespace SpanishSyntax

structure TagWriter where
  output : String
  level : Nat
  deriving DecidableEq, Repr

namespace TagWriter

def start : TagWriter := ⟨"", 0⟩

def openTag (w : TagWriter) (tag : String) (attrs : List (String × String)) : TagWriter :=
  ⟨w.output ++ Markup.opening w.level tag attrs, w.level + 1⟩

def closeTag? (w : TagWriter) (tag : String) : Option TagWriter :=
  match w.level with
  | 0 => none
  | level + 1 => some ⟨w.output ++ Markup.closing level tag, level⟩

def emptyTag (w : TagWriter) (tag : String) : TagWriter :=
  ⟨w.output ++ Markup.emptyTag w.level tag, w.level⟩

def textTag (w : TagWriter) (tag : String) (attrs : List (String × String)) (text : String) :
    TagWriter :=
  ⟨w.output ++ Markup.textTag w.level tag attrs text, w.level⟩

mutual
def node? (w : TagWriter) : TreeNode → Option TagWriter
  | ⟨l, _, _, lexeme, cs⟩ =>
    match lexeme, cs with
    | some word, [] => some (w.textTag l [] word)
    | none, [] => some (w.emptyTag l)
    | _, _ :: _ => (nodes? (w.openTag l []) cs).bind fun w' => w'.closeTag? l
def nodes? (w : TagWriter) : List TreeNode → Option TagWriter
  | [] => some w
  | c :: cs => (node? w c).bind fun w' => nodes? w' cs
end

/-- the tree inside a tag that says if it is a guess -/
def tree? (w : TagWriter) (tag : String) (t : SyntaxTree) : Option TagWriter :=
  ((w.openTag tag (if t.approximate then [("approximate", "true")] else [])).node? t.root).bind
    fun w' => w'.closeTag? tag

end TagWriter

end SpanishSyntax
