import SpanishSyntax.Proofs.Tree.Preorder

/-!
# What attaching words changes

`TreeNode.blank` takes the words off the terminal nodes and leaves everything else as it is.  Words
are attached to the blank tree: what hangs on a terminal node before is overwritten and never read
(`TreeNode.attach_blank`), and nothing but the words of terminal nodes is written
(`TreeNode.blank_attach`).  So whatever can be read off the blank tree is kept, and of two
attachments the later one counts.

* `TreeNode.terminals_eq_filter`     the terminal nodes come in preorder;
* `SyntaxTree.Carries`               the tree has these words on its terminal nodes, and is
                                     otherwise the given one;
* `SyntaxTree.attachLexemes_exact`   attaching words makes it so, whatever was attached before.
-/

namespace SpanishSyntax

theorem getElem?_withWords (ls words : List String) (k : Nat) :
    (withWords ls words)[k]? = ls[k]?.map fun l => (l, words[k]?) := by
  induction ls generalizing words k with
  | nil => rfl
  | cons l ls ih =>
    cases k with
    | zero =>
      show some (l, words.head?) = some (l, words[0]?)
      rw [List.head?_eq_getElem?]
    | succ k =>
      show (withWords ls words.tail)[k]? = _
      rw [ih, List.getElem?_tail]
      rfl

namespace TreeNode

mutual
/-- the node without the words of terminal nodes -/
def blank : TreeNode → TreeNode
  | ⟨l, t, v, w, cs⟩ => ⟨l, t, v, if t then none else w, blankList cs⟩
def blankList : List TreeNode → List TreeNode
  | [] => []
  | c :: cs => blank c :: blankList cs
end

/-! ## only words of terminal nodes are written -/

mutual
theorem blank_attach : ∀ (n : TreeNode) (words : List String), (n.attach words).1.blank = n.blank
  | ⟨l, true, v, _, cs⟩, words =>
    congrArg (TreeNode.mk l true v none) (blankList_attachList cs words.tail)
  | ⟨l, false, v, w, cs⟩, words =>
    congrArg (TreeNode.mk l false v w) (blankList_attachList cs words)
theorem blankList_attachList : ∀ (cs : List TreeNode) (words : List String),
    blankList (attachList words cs).1 = blankList cs
  | [], _ => rfl
  | c :: cs, words => by
    show (c.attach words).1.blank :: blankList (attachList (c.attach words).2 cs).1 = _
    rw [blank_attach c, blankList_attachList cs, blankList]
end

/-! ## words of terminal nodes are not read -/

mutual
theorem attach_blank : ∀ (n : TreeNode) (words : List String),
    n.blank.attach words = n.attach words
  | ⟨_, true, _, _, cs⟩, words => by
    unfold blank attach
    rw [attachList_blankList cs]
    rfl
  | ⟨_, false, _, _, cs⟩, words => by
    unfold blank attach
    rw [attachList_blankList cs]
    rfl
theorem attachList_blankList : ∀ (cs : List TreeNode) (words : List String),
    attachList words (blankList cs) = attachList words cs
  | [], _ => rfl
  | c :: cs, words => by
    rw [blankList, attachList, attachList, attach_blank c, attachList_blankList cs]
end

/-! ## what the blank tree shows -/

/-- trees with one blank tree agree in all that it shows -/
theorem eq_of_blank {β : Type} {f : TreeNode → β} (hf : ∀ n : TreeNode, f n.blank = f n)
    {n m : TreeNode} (h : n.blank = m.blank) : f n = f m := by
  rw [← hf n, h, hf m]

mutual
theorem count_blank : ∀ n : TreeNode, n.blank.count = n.count
  | ⟨_, _, _, _, cs⟩ => congrArg (1 + ·) (countList_blankList cs)
theorem countList_blankList : ∀ cs : List TreeNode, countList (blankList cs) = countList cs
  | [] => rfl
  | c :: cs => by
    rw [blankList, countList, countList, count_blank c, countList_blankList cs]
end

mutual
theorem height_blank : ∀ n : TreeNode, n.blank.height = n.height
  | ⟨_, _, _, _, cs⟩ => heightList_blankList cs
theorem heightList_blankList : ∀ cs : List TreeNode, heightList (blankList cs) = heightList cs
  | [] => rfl
  | c :: cs => by
    rw [blankList, heightList, heightList, height_blank c, heightList_blankList cs]
end

mutual
theorem labels_blank : ∀ n : TreeNode,
    n.blank.terminals.map (·.label) = n.terminals.map (·.label)
  | ⟨l, true, _, _, cs⟩ => congrArg (List.cons l) (labels_blankList cs)
  | ⟨_, false, _, _, cs⟩ => labels_blankList cs
theorem labels_blankList : ∀ cs : List TreeNode,
    (terminalsList (blankList cs)).map (·.label) = (terminalsList cs).map (·.label)
  | [] => rfl
  | c :: cs => by
    rw [blankList, terminalsList, terminalsList, List.map_append, List.map_append, labels_blank c,
      labels_blankList cs]
end

/-! ## terminal nodes in preorder -/

mutual
theorem terminals_eq_filter : ∀ n : TreeNode, n.terminals = n.nodes.filter (·.terminal)
  | ⟨l, true, v, w, cs⟩ => by
    show ⟨l, true, v, w, cs⟩ :: terminalsList cs = _
    rw [nodes, List.filter_cons_of_pos rfl, terminalsList_eq_filter cs]
  | ⟨l, false, v, w, cs⟩ => by
    show terminalsList cs = _
    rw [nodes, List.filter_cons_of_neg Bool.false_ne_true, terminalsList_eq_filter cs]
theorem terminalsList_eq_filter : ∀ cs : List TreeNode,
    terminalsList cs = (nodesList cs).filter (·.terminal)
  | [] => rfl
  | c :: cs => by
    rw [terminalsList, nodesList, List.filter_append, terminals_eq_filter c,
      terminalsList_eq_filter cs]
end

end TreeNode

namespace SyntaxTree

/-- the words hang on the terminal nodes one by one, and nothing else differs from the given tree -/
structure Carries (words : List String) (given t : SyntaxTree) : Prop where
  preorder : t.terminals = t.root.nodes.filter (·.terminal)
  /-- each terminal node has the word of its place, and none if the words run out before -/
  lexemes : ∀ (k : Nat) (n : TreeNode), t.terminals[k]? = some n → n.lexeme = words[k]?
  /-- labels, marks of terminals, levels, children and the words of other nodes are the same -/
  blank : t.root.blank = given.root.blank
  derivation : t.derivation = given.derivation
  approximate : t.approximate = given.approximate
  leaves : t.leaves = given.leaves
  nodeCount : t.nodeCount = given.nodeCount
  height : t.height = given.height

theorem lexeme_attachLexemes (t : SyntaxTree) (words : List String) {k : Nat} {n : TreeNode}
    (h : (t.attachLexemes words).terminals[k]? = some n) : n.lexeme = words[k]? := by
  have hcaption : (withWords (t.root.terminals.map (·.label)) words)[k]? = some n.caption := by
    rw [← TreeNode.captions_attach, List.getElem?_map]
    exact congrArg (Option.map TreeNode.caption) h
  rw [getElem?_withWords] at hcaption
  obtain ⟨l, _, hl⟩ := Option.map_eq_some_iff.mp hcaption
  exact (Prod.mk.inj hl).2.symm

/-- **Attaching words is a positional update**: the terminal nodes in preorder get the words one by
one, nothing else changes, and what was attached before leaves no trace. -/
theorem attachLexemes_exact (t : SyntaxTree) (words : List String) :
    Carries words t (t.attachLexemes words) ∧
      ∀ more : List String, (t.attachLexemes words).attachLexemes more = t.attachLexemes more := by
  have hblank : (t.attachLexemes words).root.blank = t.root.blank := t.root.blank_attach words
  refine ⟨⟨TreeNode.terminals_eq_filter _, ?_, hblank, rfl, rfl, ?_, ?_, ?_⟩, fun more => ?_⟩
  · exact fun _ _ hn => t.lexeme_attachLexemes words hn
  · exact TreeNode.eq_of_blank (f := fun n => n.terminals.map (·.label)) TreeNode.labels_blank
      hblank
  · exact TreeNode.eq_of_blank TreeNode.count_blank hblank
  · exact TreeNode.eq_of_blank TreeNode.height_blank hblank
  · have hroot := TreeNode.eq_of_blank (fun n => n.attach_blank more) hblank
    exact congrArg (fun r => SyntaxTree.mk r.1 t.derivation t.approximate) hroot

end SyntaxTree

end SpanishSyntax
