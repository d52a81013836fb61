import SpanishSyntax.Proofs.Tree.Growth
import SpanishSyntax.Total

/-!
# Expansions in any place

A trace can name any pending node, not only the leftmost one.  `Growth.Expands n body` is what an
expansion does then: the leftmost of the nodes labelled `n` gets the body, whatever is pending to
its left.

* `Growth.expand?_eq_some_iff`   the search by label finds that node;
* `Growth.Expands.yield_eq`      the yield is rewritten at the leftmost occurrence;
* `Replay.Applies.yield_eq`      so the sentential form beside the tree stays its yield, and it is
                                 written down in front of each expansion
                                 (`Replay.Applies.getElem?_forms`).
-/

namespace SpanishSyntax

/-- the names of the nonterminals of a form, in order -/
def Symbol.nonterminals (u : List Symbol) : List String :=
  (u.filter fun s => !s.isTerminal).map Symbol.name

theorem Symbol.nonterminals_append (u v : List Symbol) :
    nonterminals (u ++ v) = nonterminals u ++ nonterminals v := by
  simp [nonterminals]

theorem Symbol.mem_nonterminals {n : String} {u : List Symbol} :
    n ∈ nonterminals u ↔ .nonterminal n ∈ u := by
  constructor
  · intro h
    obtain ⟨s, hs, rfl⟩ := List.mem_map.mp h
    obtain ⟨hs, hterminal⟩ := List.mem_filter.mp hs
    cases s with
    | terminal a => cases hterminal
    | nonterminal a => exact hs
  · intro h
    exact List.mem_map.mpr ⟨.nonterminal n, List.mem_filter.mpr ⟨h, rfl⟩, rfl⟩

/-! ## rewriting a form -/

section
variable {n : String} {body u : List Symbol}

theorem rewriteLeftmost_append_of_mem (h : .nonterminal n ∈ u) (v : List Symbol) :
    rewriteLeftmost n body (u ++ v) = rewriteLeftmost n body u ++ v := by
  induction u with
  | nil => cases h
  | cons s u ih =>
    rw [List.cons_append, rewriteLeftmost, rewriteLeftmost]
    by_cases hs : s = .nonterminal n
    · rw [if_pos hs, if_pos hs, List.append_assoc]
    · rw [if_neg hs, if_neg hs, ih (List.mem_of_ne_of_mem (Ne.symm hs) h), List.cons_append]

theorem rewriteLeftmost_append_of_not_mem (h : .nonterminal n ∉ u) (v : List Symbol) :
    rewriteLeftmost n body (u ++ v) = u ++ rewriteLeftmost n body v := by
  induction u with
  | nil => rfl
  | cons s u ih =>
    obtain ⟨hs, hu⟩ := not_or.mp (mt List.mem_cons.mpr h)
    rw [List.cons_append, rewriteLeftmost, if_neg (Ne.symm hs), ih hu, List.cons_append]

end

namespace Growth

theorem yieldList_append (cs ds : List Growth) :
    yieldList (cs ++ ds) = yieldList cs ++ yieldList ds := by
  induction cs with
  | nil => rfl
  | cons c cs ih => rw [List.cons_append, yieldList, yieldList, ih, List.append_assoc]

theorem mem_yieldList {s : Symbol} {cs : List Growth} :
    s ∈ yieldList cs ↔ ∃ c ∈ cs, s ∈ c.yield := by
  induction cs with
  | nil => simp [yieldList]
  | cons c cs ih => simp [yieldList, ih]

theorem not_mem_yieldList {s : Symbol} {cs : List Growth} (h : ∀ c ∈ cs, s ∉ c.yield) :
    s ∉ yieldList cs := fun hs => by
  obtain ⟨c, hc, hs⟩ := mem_yieldList.mp hs
  exact h c hc hs

theorem closed_of_yieldList_eq {cs : List Growth} {read : List String}
    (h : yieldList cs = read.map .terminal) : ∀ c ∈ cs, c.Closed := by
  intro c hc n hn
  have hmem : .nonterminal n ∈ yieldList cs := mem_yieldList.mpr ⟨c, hc, hn⟩
  rw [h] at hmem
  obtain ⟨_, _, ha⟩ := List.mem_map.mp hmem
  cases ha

/-! ## the leftmost node with a label -/

inductive Expands (n : String) (body : List Symbol) : Growth → Growth → Prop where
  | here : Expands n body (pending n) (branch n (body.map ofSymbol))
  | under {l : String} {left right : List Growth} {c c' : Growth}
      (hleft : ∀ d ∈ left, .nonterminal n ∉ d.yield) (h : Expands n body c c') :
      Expands n body (branch l (left ++ c :: right)) (branch l (left ++ c' :: right))

section
variable {n : String} {body : List Symbol}

mutual
/-- where no node with the label is pending, none is found -/
theorem expand?_of_not_mem (label : String) (body : List Symbol) :
    ∀ g : Growth, .nonterminal label ∉ g.yield → g.expand? label body = none
  | leaf _, _ => rfl
  | pending l, h => by
    refine if_neg fun hl => h ?_
    rw [hl]
    exact List.mem_singleton_self _
  | branch l cs, h => by
    rw [expand?, expandList?_of_not_mem label body cs h]
    rfl
theorem expandList?_of_not_mem (label : String) (body : List Symbol) :
    ∀ cs : List Growth, .nonterminal label ∉ yieldList cs → expandList? label body cs = none
  | [], _ => rfl
  | c :: cs, h => by
    rw [expandList?, expand?_of_not_mem label body c fun hc => h (List.mem_append_left _ hc)]
    dsimp only
    rw [expandList?_of_not_mem label body cs fun hcs => h (List.mem_append_right _ hcs)]
    rfl
end

mutual
theorem exists_expands (n : String) (body : List Symbol) :
    ∀ g : Growth, .nonterminal n ∈ g.yield → ∃ g', Expands n body g g'
  | leaf _, h => by simp [yield] at h
  | pending l, h => by
    obtain rfl := Symbol.nonterminal.inj (List.mem_singleton.mp h)
    exact ⟨branch n (body.map ofSymbol), .here⟩
  | branch l cs, h => by
    obtain ⟨left, c, c', right, rfl, hleft, hexp⟩ := exists_expandsList n body cs h
    exact ⟨branch l (left ++ c' :: right), .under hleft hexp⟩
theorem exists_expandsList (n : String) (body : List Symbol) :
    ∀ cs : List Growth, .nonterminal n ∈ yieldList cs →
      ∃ left c c' right, cs = left ++ c :: right ∧ (∀ d ∈ left, .nonterminal n ∉ d.yield) ∧
        Expands n body c c'
  | [], h => by cases h
  | c :: cs, h => by
    by_cases hc : .nonterminal n ∈ c.yield
    · obtain ⟨c', hexp⟩ := exists_expands n body c hc
      exact ⟨[], c, c', cs, rfl, (fun _ hd => nomatch hd), hexp⟩
    · have hcs := (List.mem_append.mp h).resolve_left hc
      obtain ⟨left, d, d', right, rfl, hleft, hexp⟩ := exists_expandsList n body cs hcs
      exact ⟨c :: left, d, d', right, rfl, List.forall_mem_cons.mpr ⟨hc, hleft⟩, hexp⟩
end

theorem expandList?_append {left : List Growth} (hleft : ∀ d ∈ left, .nonterminal n ∉ d.yield)
    {c c' : Growth} (hc : c.expand? n body = some c') (right : List Growth) :
    expandList? n body (left ++ c :: right) = some (left ++ c' :: right) := by
  induction left with
  | nil =>
    rw [List.nil_append, expandList?, hc]
    rfl
  | cons d left ih =>
    obtain ⟨hd, hleft⟩ := List.forall_mem_cons.mp hleft
    rw [List.cons_append, expandList?, expand?_of_not_mem n body d hd]
    dsimp only
    rw [ih hleft]
    rfl

theorem Expands.expand?_eq {g g' : Growth} (h : Expands n body g g') :
    g.expand? n body = some g' := by
  induction h with
  | here => exact if_pos rfl
  | @under l left right c c' hleft _ ih =>
    rw [expand?, expandList?_append hleft ih]
    rfl

theorem expand?_eq_some_iff {g g' : Growth} :
    g.expand? n body = some g' ↔ Expands n body g g' := by
  refine ⟨fun h => ?_, Expands.expand?_eq⟩
  by_cases hmem : .nonterminal n ∈ g.yield
  · obtain ⟨g'', hexp⟩ := exists_expands n body g hmem
    obtain rfl := Option.some.inj (h.symm.trans hexp.expand?_eq)
    exact hexp
  · rw [expand?_of_not_mem n body g hmem] at h
    cases h

namespace Expands

variable {g g' : Growth}

theorem mem_yield (h : Expands n body g g') : .nonterminal n ∈ g.yield := by
  induction h with
  | here => exact List.mem_singleton_self _
  | @under l left right c c' _ _ ih =>
    exact mem_yieldList.mpr ⟨c, List.mem_append_right _ List.mem_cons_self, ih⟩

theorem yield_eq (h : Expands n body g g') : g'.yield = rewriteLeftmost n body g.yield := by
  induction h with
  | here =>
    show yieldList (body.map ofSymbol) = if _ then _ else _
    rw [if_pos rfl, yieldList_ofSymbol, List.append_nil]
  | @under l left right c c' hleft h ih =>
    show yieldList (left ++ c' :: right) = rewriteLeftmost n body (yieldList (left ++ c :: right))
    rw [yieldList_append, yieldList_append, yieldList, yieldList,
      rewriteLeftmost_append_of_not_mem (not_mem_yieldList hleft),
      rewriteLeftmost_append_of_mem h.mem_yield, ih]

/-- where only terminals stand to its left, the node is the leftmost of all -/
theorem leftmost {p : Production} {g g' : Growth} (h : Expands p.head p.body g g')
    {read : List String} {rest : List Symbol}
    (hyield : g.yield = read.map .terminal ++ .nonterminal p.head :: rest) :
    ExpandsLeftmost p g g' := by
  induction h generalizing read rest with
  | here => exact .here
  | @under l left right c c' hleft h ih =>
    have hsplit : yieldList left ++ (c.yield ++ yieldList right) =
        read.map .terminal ++ .nonterminal p.head :: rest :=
      (yieldList_append left (c :: right)).symm.trans hyield
    rcases Symbol.split_at_nonterminal hsplit with ⟨mid, hmid, -⟩ | ⟨_, read₂, -, hread, hrest⟩
    · refine absurd ?_ (not_mem_yieldList hleft)
      rw [hmid]
      exact List.mem_append_right _ List.mem_cons_self
    · rcases Symbol.split_at_nonterminal hrest with ⟨mid, hc, -⟩ | ⟨_, _, -, hc, -⟩
      · exact .under (closed_of_yieldList_eq hread) (ih hc)
      · have hsingle : yieldList [c] = _ := (List.append_nil _).trans hc
        exact absurd h.mem_yield (closed_of_yieldList_eq hsingle c List.mem_cons_self p.head)

end Expands

end

/-! ## measures of the tree -/

theorem countList_toNodeList_append (level : Nat) (cs ds : List Growth) :
    TreeNode.countList (toNodeList level (cs ++ ds)) =
      TreeNode.countList (toNodeList level cs) + TreeNode.countList (toNodeList level ds) := by
  induction cs with
  | nil => exact (Nat.zero_add _).symm
  | cons c cs ih =>
    rw [List.cons_append, toNodeList, toNodeList, TreeNode.countList, TreeNode.countList, ih,
      Nat.add_assoc]

theorem countList_ofSymbol (level : Nat) (body : List Symbol) :
    TreeNode.countList (toNodeList level (body.map ofSymbol)) = body.length := by
  induction body with
  | nil => rfl
  | cons s body ih =>
    rw [List.map_cons, toNodeList, TreeNode.countList, ih, List.length_cons, Nat.add_comm]
    cases s <;> rfl

/-- a body brings a node for each of its symbols -/
theorem Expands.count_toNode {n : String} {body : List Symbol} {g g' : Growth}
    (h : Expands n body g g') (level : Nat) :
    (g'.toNode level).count = (g.toNode level).count + body.length := by
  induction h generalizing level with
  | here =>
    show 1 + TreeNode.countList (toNodeList (level + 1) (body.map ofSymbol)) = 1 + body.length
    rw [countList_ofSymbol]
  | @under l left right c c' _ _ ih =>
    show 1 + TreeNode.countList (toNodeList (level + 1) (left ++ c' :: right)) =
      1 + TreeNode.countList (toNodeList (level + 1) (left ++ c :: right)) + body.length
    rw [countList_toNodeList_append, countList_toNodeList_append, toNodeList, toNodeList,
      TreeNode.countList, TreeNode.countList, ih]
    omega

end Growth

namespace TreeNode

mutual
/-- every node has its depth as its level, where the root is that deep -/
def LevelsFrom (depth : Nat) : TreeNode → Prop
  | ⟨_, _, level, _, cs⟩ => level = depth ∧ LevelsFromList (depth + 1) cs
def LevelsFromList (depth : Nat) : List TreeNode → Prop
  | [] => True
  | c :: cs => LevelsFrom depth c ∧ LevelsFromList depth cs
end

end TreeNode

namespace Growth

mutual
theorem levelsFrom_toNode : ∀ (g : Growth) (level : Nat), (g.toNode level).LevelsFrom level
  | leaf _, _ => ⟨rfl, trivial⟩
  | pending _, _ => ⟨rfl, trivial⟩
  | branch _ cs, level => ⟨rfl, levelsFromList_toNodeList cs (level + 1)⟩
theorem levelsFromList_toNodeList :
    ∀ (cs : List Growth) (level : Nat), TreeNode.LevelsFromList level (toNodeList level cs)
  | [], _ => trivial
  | c :: cs, level => ⟨levelsFrom_toNode c level, levelsFromList_toNodeList cs level⟩
end

end Growth

/-! ## replays -/

namespace Replay

/-- every expansion is applied -/
inductive Applies : Replay → List (String × List Symbol) → Replay → Prop where
  | refl (r : Replay) : Applies r [] r
  | step {r r' r'' : Replay} {e : String × List Symbol} {es : List (String × List Symbol)}
      (hgrow : r.grow? e.1 e.2 = some r') (h : Applies r' es r'') : Applies r (e :: es) r''

theorem of_grow? {r r' : Replay} {n : String} {body : List Symbol}
    (h : r.grow? n body = some r') : r.growth.Expands n body r'.growth ∧
      r'.form = rewriteLeftmost n body r.form ∧ r'.earlier = r.form :: r.earlier := by
  obtain ⟨g', hfound, rfl⟩ := Option.map_eq_some_iff.mp h
  exact ⟨Growth.expand?_eq_some_iff.mp hfound, rfl, rfl⟩

/-- the form is rewritten where the tree is expanded -/
theorem yield_eq_of_grow? {r r' : Replay} {n : String} {body : List Symbol}
    (h : r.grow? n body = some r') (hr : r.growth.yield = r.form) : r'.growth.yield = r'.form := by
  obtain ⟨hexp, hform, -⟩ := of_grow? h
  rw [hexp.yield_eq, hform, hr]

theorem forms_of_grow? {r r' : Replay} {n : String} {body : List Symbol}
    (h : r.grow? n body = some r') : r'.forms = r.forms ++ [r'.form] := by
  obtain ⟨-, -, hearlier⟩ := of_grow? h
  rw [forms, forms, hearlier, List.reverse_cons]

theorem length_forms (r : Replay) : r.forms.length = r.earlier.length + 1 := by
  rw [forms, List.length_reverse, List.length_cons]

theorem getElem?_forms_length (r : Replay) : r.forms[r.earlier.length]? = some r.form := by
  rw [forms, List.reverse_cons, ← List.length_reverse, List.getElem?_concat_length]

namespace Applies

variable {r r' : Replay} {es : List (String × List Symbol)}

theorem applyAll_eq (h : Applies r es r') : r.applyAll es = r' := by
  induction h with
  | refl => rfl
  | step hgrow _ ih =>
    rw [applyAll, hgrow]
    exact ih

theorem yield_eq (h : Applies r es r') (hr : r.growth.yield = r.form) :
    r'.growth.yield = r'.form := by
  induction h with
  | refl => exact hr
  | step hgrow _ ih => exact ih (yield_eq_of_grow? hgrow hr)

theorem count_toNode (h : Applies r es r') (level : Nat) : (r'.growth.toNode level).count =
    (r.growth.toNode level).count + total (fun e => e.2.length) es := by
  induction h with
  | refl => rfl
  | step hgrow _ ih =>
    rw [ih, (of_grow? hgrow).1.count_toNode, total_cons, Nat.add_assoc]

theorem length_forms (h : Applies r es r') : r'.forms.length = r.forms.length + es.length := by
  induction h with
  | refl => rfl
  | step hgrow _ ih =>
    rw [ih, forms_of_grow? hgrow, List.length_append, List.length_singleton, List.length_cons]
    omega

theorem isPrefix_forms (h : Applies r es r') : r.forms <+: r'.forms := by
  induction h with
  | refl => exact List.prefix_rfl
  | step hgrow _ ih =>
    refine List.IsPrefix.trans ?_ ih
    rw [forms_of_grow? hgrow]
    exact List.prefix_append _ _

/-- each form is the yield of the tree after as many expansions -/
theorem getElem?_forms (h : Applies r es r') (hr : r.growth.yield = r.form) :
    ∀ k ≤ es.length,
      r'.forms[r.earlier.length + k]? = some (r.applyAll (es.take k)).growth.yield := by
  induction h with
  | refl r =>
    intro k hk
    obtain rfl := Nat.le_zero.mp hk
    show r.forms[r.earlier.length]? = some r.growth.yield
    rw [hr, getElem?_forms_length]
  | @step r r₁ r₂ e es hgrow h ih =>
    obtain ⟨-, -, hearlier⟩ := of_grow? hgrow
    intro k hk
    cases k with
    | zero =>
      obtain ⟨later, hlater⟩ := (Applies.step hgrow h).isPrefix_forms
      have hlt : r.earlier.length < r.forms.length := by
        rw [Replay.length_forms]
        exact Nat.lt_succ_self _
      show r₂.forms[r.earlier.length]? = some r.growth.yield
      rw [hr, ← hlater, List.getElem?_append_left hlt, getElem?_forms_length]
    | succ k =>
      have hk := ih (yield_eq_of_grow? hgrow hr) k (Nat.le_of_succ_le_succ hk)
      rw [hearlier, List.length_cons] at hk
      rw [List.take_succ_cons, applyAll, hgrow, ← hk]
      congr 1
      omega

end Applies

end Replay

end SpanishSyntax
