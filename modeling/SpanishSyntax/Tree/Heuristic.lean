import SpanishSyntax.Tree.Basic

/-!
# Trees guessed from word categories

When the grammar derives no tree, the words are split at the first verb: those before it hang
under a subject `SN`, the rest under a predicate `SV`, each below a node for its category.
-/

namespace SpanishSyntax

/-- the node label for a lexical category; categories without one label themselves -/
def categoryLabel : String → String
  | "art" => "Det"
  | "sust" => "N"
  | "verbo" => "V"
  | "adj" => "Adj"
  | "adv" => "Adv"
  | "prep" => "Prep"
  | "pronom" => "Pron"
  | "conj" => "Conj"
  | "interr" => "Interr"
  | "punt" => "Punt"
  | "num" => "Num"
  | other => other

namespace SyntaxTree

/-- a word under the node of its category -/
def wordNode (word : String × String) : TreeNode :=
  ⟨categoryLabel word.2, false, 2, none, [⟨word.2, true, 3, some word.1, []⟩]⟩

def isVerb (word : String × String) : Bool := word.2 == "verbo"

/-- the tree of pairs of a word and its category -/
def guess (words : List (String × String)) : SyntaxTree where
  root := ⟨"S", false, 0, none,
    [⟨"SN", false, 1, none, (words.takeWhile (!isVerb ·)).map wordNode⟩,
     ⟨"SV", false, 1, none, (words.dropWhile (!isVerb ·)).map wordNode⟩]⟩
  derivation := numberedFrom 1
    (["S", "SN SV"] ++ if words.isEmpty then [] else [Text.joined " " (words.map (·.1))])
  approximate := true

end SyntaxTree

end SpanishSyntax
