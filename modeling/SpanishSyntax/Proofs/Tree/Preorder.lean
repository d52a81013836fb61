import SpanishSyntax.Proofs.Tree.Words

/-!
# Trees in preorder

A node comes before its children and these from left to right, each with its depth.  The children
of a node are over where something as high as the node or higher comes, so depths, labels and words
in preorder determine a tree (`plain_of_captions`), up to the levels and the marks of terminals,
which `plain` leaves out.
-/

namespace SpanishSyntax.TreeNode

mutual
/-- the node without levels and marks of terminals -/
def plain : TreeNode → TreeNode
  | ⟨l, _, _, w, cs⟩ => ⟨l, false, 0, w, plainList cs⟩
def plainList : List TreeNode → List TreeNode
  | [] => []
  | c :: cs => plain c :: plainList cs
end

theorem plain_eq (n : TreeNode) :
    n.plain = ⟨n.label, false, 0, n.lexeme, plainList n.children⟩ := by
  cases n
  rfl

mutual
/-- the nodes in preorder -/
def nodes : TreeNode → List TreeNode
  | ⟨l, t, v, w, cs⟩ => ⟨l, t, v, w, cs⟩ :: nodesList cs
def nodesList : List TreeNode → List TreeNode
  | [] => []
  | c :: cs => nodes c ++ nodesList cs
end

theorem nodes_eq (n : TreeNode) : n.nodes = n :: nodesList n.children := by
  cases n
  rfl

theorem mem_nodes_self (n : TreeNode) : n ∈ n.nodes := by
  rw [nodes_eq]
  exact List.mem_cons_self

theorem mem_nodesList_cons (c : TreeNode) (cs : List TreeNode) : c ∈ nodesList (c :: cs) :=
  List.mem_append_left _ c.mem_nodes_self

mutual
/-- the nodes in preorder, each with its depth -/
def preorder (depth : Nat) : TreeNode → List (Nat × TreeNode)
  | ⟨l, t, v, w, cs⟩ => (depth, ⟨l, t, v, w, cs⟩) :: preorderList (depth + 1) cs
def preorderList (depth : Nat) : List TreeNode → List (Nat × TreeNode)
  | [] => []
  | c :: cs => preorder depth c ++ preorderList depth cs
end

theorem preorder_eq (depth : Nat) (n : TreeNode) :
    n.preorder depth = (depth, n) :: preorderList (depth + 1) n.children := by
  cases n
  rfl

mutual
theorem map_snd_preorder : ∀ (n : TreeNode) (depth : Nat), (n.preorder depth).map Prod.snd = n.nodes
  | ⟨_, _, _, _, cs⟩, depth => congrArg (List.cons _) (map_snd_preorderList cs (depth + 1))
theorem map_snd_preorderList : ∀ (cs : List TreeNode) (depth : Nat),
    (preorderList depth cs).map Prod.snd = nodesList cs
  | [], _ => rfl
  | c :: cs, depth => by
    rw [preorderList, List.map_append, map_snd_preorder c, map_snd_preorderList cs, nodesList]
end

theorem mem_nodesList_of_mem_preorderList {cs : List TreeNode} {depth : Nat}
    {e : Nat × TreeNode} (h : e ∈ preorderList depth cs) : e.2 ∈ nodesList cs := by
  rw [← map_snd_preorderList cs depth]
  exact List.mem_map_of_mem h

mutual
theorem length_preorder : ∀ (n : TreeNode) (depth : Nat), (n.preorder depth).length = n.count
  | ⟨_, _, _, _, cs⟩, depth => by
    rw [preorder, List.length_cons, length_preorderList cs, count, Nat.add_comm]
theorem length_preorderList : ∀ (cs : List TreeNode) (depth : Nat),
    (preorderList depth cs).length = countList cs
  | [], _ => rfl
  | c :: cs, depth => by
    rw [preorderList, List.length_append, length_preorder c, length_preorderList cs, countList]
end

/-! ## back from the captions -/

/-- depths, labels and words -/
abbrev Captions := List (Nat × String × Option String)

def captions (entries : List (Nat × TreeNode)) : Captions :=
  entries.map fun e => (e.1, e.2.caption)

theorem captions_append (es fs : List (Nat × TreeNode)) :
    captions (es ++ fs) = captions es ++ captions fs := List.map_append

/-- the first of them, if there is one, is higher than the depth -/
def Captions.Above (depth : Nat) (r : Captions) : Prop := ∀ e ∈ r.head?, e.1 < depth

theorem Captions.Above.behind {depth : Nat} {r : Captions} (h : r.Above depth)
    (cs : List TreeNode) : (captions (preorderList depth cs) ++ r).Above (depth + 1) := by
  intro e he
  cases cs with
  | nil => exact Nat.lt_succ_of_lt (h e he)
  | cons c cs =>
    rw [preorderList, preorder_eq] at he
    obtain rfl := Option.some.inj he
    exact Nat.lt_succ_self depth

theorem Captions.above_nil (depth : Nat) : Captions.Above depth [] := fun _ he => nomatch he

theorem not_above_preorderList {depth : Nat} {c : TreeNode} {cs : List TreeNode} {r : Captions} :
    ¬ (captions (preorderList depth (c :: cs)) ++ r).Above depth := by
  intro h
  rw [preorderList, preorder_eq] at h
  exact Nat.lt_irrefl depth (h _ rfl)

mutual
theorem plain_of_captions : ∀ (n m : TreeNode) (depth : Nat) (r s : Captions),
    r.Above (depth + 1) → s.Above (depth + 1) →
    captions (n.preorder depth) ++ r = captions (m.preorder depth) ++ s →
    n.plain = m.plain ∧ r = s
  | ⟨l, _, _, w, cs⟩, ⟨l', _, _, w', ds⟩, depth, r, s, hr, hs, h => by
    obtain ⟨hcaption, hbehind⟩ := List.cons.inj h
    obtain ⟨rfl, rfl⟩ := Prod.mk.inj (Prod.mk.inj hcaption).2
    obtain ⟨hchildren, hrest⟩ := plainList_of_captions cs ds (depth + 1) r s hr hs hbehind
    exact ⟨congrArg (TreeNode.mk l false 0 w) hchildren, hrest⟩
theorem plainList_of_captions : ∀ (cs ds : List TreeNode) (depth : Nat) (r s : Captions),
    r.Above depth → s.Above depth →
    captions (preorderList depth cs) ++ r = captions (preorderList depth ds) ++ s →
    plainList cs = plainList ds ∧ r = s
  | [], [], _, _, _, _, _, h => ⟨rfl, h⟩
  | [], _ :: _, _, r, _, hr, _, h => by
    rw [show r = _ from h] at hr
    exact absurd hr not_above_preorderList
  | _ :: _, [], _, _, s, _, hs, h => by
    rw [show s = _ from h.symm] at hs
    exact absurd hs not_above_preorderList
  | c :: cs, d :: ds, depth, r, s, hr, hs, h => by
    rw [preorderList, preorderList, captions_append, captions_append, List.append_assoc,
      List.append_assoc] at h
    obtain ⟨hhead, htail⟩ := plain_of_captions c d depth _ _ (hr.behind cs) (hs.behind ds) h
    obtain ⟨hchildren, hrest⟩ := plainList_of_captions cs ds depth r s hr hs htail
    rw [plainList, plainList, hhead, hchildren]
    exact ⟨rfl, hrest⟩
end

theorem plainList_eq_of_captions {cs ds : List TreeNode} {depth : Nat}
    (h : captions (preorderList depth cs) = captions (preorderList depth ds)) :
    plainList cs = plainList ds := by
  have hnil := congrArg (fun r : Captions => r ++ []) h
  exact (plainList_of_captions cs ds depth [] [] (Captions.above_nil depth)
    (Captions.above_nil depth) hnil).1

end SpanishSyntax.TreeNode
