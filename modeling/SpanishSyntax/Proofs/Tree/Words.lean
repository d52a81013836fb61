import SpanishSyntax.Tree.Heuristic
import SpanishSyntax.Tree.Replay

/-!
# Words at the leaves

`TreeNode.caption` is the label of a node with its word.  Attaching words reads the terminal nodes
from left to right and hands the words that are left over from one child to the next, so a node
takes as many words as it has terminal nodes (`TreeNode.snd_attach`), and the captions are the
labels with the words beside them (`TreeNode.captions_attach`).  A guessed tree has its words from
the start (`SyntaxTree.terminals_wordNodes`).
-/

namespace SpanishSyntax

/-- labels with words beside them, and no word once these have run out -/
def withWords : List String → List String → List (String × Option String)
  | [], _ => []
  | l :: ls, words => (l, words.head?) :: withWords ls words.tail

theorem withWords_append (ls ms words : List String) :
    withWords (ls ++ ms) words = withWords ls words ++ withWords ms (words.drop ls.length) := by
  induction ls generalizing words with
  | nil => rfl
  | cons l ls ih =>
    rw [List.cons_append, withWords, withWords, ih, List.cons_append, List.length_cons,
      List.drop_tail]

theorem withWords_nil (ls : List String) : withWords ls [] = ls.map fun l => (l, none) := by
  induction ls with
  | nil => rfl
  | cons l ls ih => exact congrArg (List.cons (l, none)) ih

theorem withWords_map {α : Type} (label word : α → String) (xs : List α) :
    withWords (xs.map label) (xs.map word) = xs.map fun x => (label x, some (word x)) := by
  induction xs with
  | nil => rfl
  | cons x xs ih => exact congrArg (List.cons (label x, some (word x))) ih

namespace TreeNode

def caption (n : TreeNode) : String × Option String := (n.label, n.lexeme)

mutual
theorem snd_attach : ∀ (n : TreeNode) (words : List String),
    (n.attach words).2 = words.drop n.terminals.length
  | ⟨_, true, _, _, cs⟩, words => by
    show (attachList words.tail cs).2 = words.drop (terminalsList cs).length.succ
    rw [snd_attachList cs, List.drop_tail]
  | ⟨_, false, _, _, cs⟩, words => snd_attachList cs words
theorem snd_attachList : ∀ (cs : List TreeNode) (words : List String),
    (attachList words cs).2 = words.drop (terminalsList cs).length
  | [], _ => rfl
  | c :: cs, words => by
    show (attachList (c.attach words).2 cs).2 = _
    rw [snd_attachList cs, snd_attach c, List.drop_drop, terminalsList, List.length_append]
end

mutual
theorem captions_attach : ∀ (n : TreeNode) (words : List String),
    (n.attach words).1.terminals.map caption = withWords (n.terminals.map (·.label)) words
  | ⟨l, true, _, _, cs⟩, words =>
    congrArg (List.cons (l, words.head?)) (captions_attachList cs words.tail)
  | ⟨_, false, _, _, cs⟩, words => captions_attachList cs words
theorem captions_attachList : ∀ (cs : List TreeNode) (words : List String),
    (terminalsList (attachList words cs).1).map caption =
      withWords ((terminalsList cs).map (·.label)) words
  | [], _ => rfl
  | c :: cs, words => by
    show ((c.attach words).1.terminals ++
      terminalsList (attachList (c.attach words).2 cs).1).map caption = _
    rw [List.map_append, captions_attach c, captions_attachList cs, snd_attach c, terminalsList,
      List.map_append, withWords_append, List.length_map]
end

end TreeNode

/-! ## replayed trees -/

namespace Growth

mutual
/-- no word hangs on an inner node -/
theorem isLeaf_attach_toNode : ∀ (r : Growth) (level : Nat) (words : List String),
    ∀ n ∈ ((r.toNode level).attach words).1.terminals, n.isLeaf = true
  | leaf _, _, _ => fun n hn => by
    obtain rfl := List.mem_singleton.mp hn
    rfl
  | pending _, _, _ => fun _ hn => nomatch hn
  | branch _ cs, level, words => isLeaf_attachList_toNodeList cs (level + 1) words
theorem isLeaf_attachList_toNodeList : ∀ (cs : List Growth) (level : Nat) (words : List String),
    ∀ n ∈ TreeNode.terminalsList (TreeNode.attachList words (toNodeList level cs)).1,
      n.isLeaf = true
  | [], _, _ => fun _ hn => nomatch hn
  | c :: cs, level, words => fun n hn => by
    rcases List.mem_append.mp hn with hn | hn
    · exact isLeaf_attach_toNode c level words n hn
    · exact isLeaf_attachList_toNodeList cs level _ n hn
end

end Growth

/-! ## guessed trees -/

namespace SyntaxTree

theorem terminals_wordNodes (words : List (String × String)) :
    TreeNode.terminalsList (words.map wordNode) =
      words.map fun w => ⟨w.2, true, 3, some w.1, []⟩ := by
  induction words with
  | nil => rfl
  | cons w words ih => exact congrArg (List.cons _) ih

theorem terminals_guess (words : List (String × String)) :
    (guess words).terminals = words.map fun w => ⟨w.2, true, 3, some w.1, []⟩ := by
  have hsplit := List.takeWhile_append_dropWhile (p := (!isVerb ·)) (l := words)
  show TreeNode.terminalsList ((words.takeWhile (!isVerb ·)).map wordNode) ++
    (TreeNode.terminalsList ((words.dropWhile (!isVerb ·)).map wordNode) ++ []) = _
  rw [List.append_nil, terminals_wordNodes, terminals_wordNodes, ← List.map_append, hsplit]

end SyntaxTree

end SpanishSyntax
