import SpanishSyntax.Text.Entity
import SpanishSyntax.Tree.Basic

/-!
# Nested tags

A node becomes a tag named after its label: with its word as text, empty if it has neither word
nor children, or around the tags of its children, two columns further to the right.
-/

namespace SpanishSyntax

namespace Markup

def indent (level : Nat) : String := String.ofList (List.replicate (2 * level) ' ')

def attributes : List (String × String) → String
  | [] => ""
  | (key, value) :: rest => " " ++ key ++ "=\"" ++ Text.escape value ++ "\"" ++ attributes rest

def opening (level : Nat) (tag : String) (attrs : List (String × String)) : String :=
  indent level ++ "<" ++ tag ++ attributes attrs ++ ">\n"

def closing (level : Nat) (tag : String) : String := indent level ++ "</" ++ tag ++ ">\n"

def emptyTag (level : Nat) (tag : String) : String := indent level ++ "<" ++ tag ++ "/>\n"

def textTag (level : Nat) (tag : String) (attrs : List (String × String)) (text : String) :
    String :=
  indent level ++ "<" ++ tag ++ attributes attrs ++ ">" ++ Text.escape text ++ "</" ++ tag ++ ">\n"

/-- a tag around `content`, which is written one level deeper -/
def around (level : Nat) (tag : String) (attrs : List (String × String)) (content : String) :
    String :=
  opening level tag attrs ++ content ++ closing level tag

end Markup

open Markup

namespace TreeNode

mutual
def markup (level : Nat) : TreeNode → String
  | ⟨l, _, _, w, cs⟩ =>
    match w, cs with
    | some word, [] => textTag level l [] word
    | none, [] => emptyTag level l
    | _, _ :: _ => around level l [] (markupList (level + 1) cs)
def markupList (level : Nat) : List TreeNode → String
  | [] => ""
  | c :: cs => markup level c ++ markupList level cs
end

end TreeNode

namespace SyntaxTree

/-- the tree inside a tag that says if it is a guess -/
def markup (level : Nat) (tag : String) (t : SyntaxTree) : String :=
  around level tag (if t.approximate then [("approximate", "true")] else [])
    (t.root.markup (level + 1))

end SyntaxTree

end SpanishSyntax
