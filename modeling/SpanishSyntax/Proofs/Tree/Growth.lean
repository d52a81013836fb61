import SpanishSyntax.Proofs.Grammar.Derivation
import SpanishSyntax.Tree.Replay

/-!
# Growing trees

The yield of a `Growth` is what stands at its ends from left to right: the terminals and the nodes
that are still pending.  `Growth.ExpandsLeftmost p` says that the leftmost pending node of the
whole tree is labelled with the head of `p` and gets its body.

* `Growth.ValidFor`         each expanded node shows a production; kept by such an expansion;
* `Growth.leaves_toNode`    the terminals of the finished tree are those of the yield.
-/

namespace SpanishSyntax

/-- a word in front, the leftmost nonterminal, and what the production makes of them -/
def Production.RewritesLeftmost (p : Production) (u v : List Symbol) : Prop :=
  ∃ (read : List String) (right : List Symbol),
    u = read.map .terminal ++ .nonterminal p.head :: right ∧
    v = read.map .terminal ++ (p.body ++ right)

/-- the leftmost nonterminal of a form stands in the first part, or the first part is a word -/
theorem Symbol.split_at_nonterminal {read : List String} {n : String} {u v right : List Symbol}
    (h : u ++ v = read.map .terminal ++ .nonterminal n :: right) :
    (∃ mid, u = read.map .terminal ++ .nonterminal n :: mid ∧ right = mid ++ v) ∨
      ∃ read₁ read₂, read = read₁ ++ read₂ ∧ u = read₁.map .terminal ∧
        v = read₂.map .terminal ++ .nonterminal n :: right := by
  induction u generalizing read with
  | nil => exact .inr ⟨[], read, rfl, rfl, h⟩
  | cons x u ih =>
    cases read with
    | nil =>
      obtain ⟨rfl, rfl⟩ := List.cons.inj h
      exact .inl ⟨u, rfl, rfl⟩
    | cons a read =>
      obtain ⟨rfl, hrest⟩ := List.cons.inj h
      rcases ih hrest with ⟨mid, rfl, rfl⟩ | ⟨read₁, read₂, rfl, rfl, rfl⟩
      · exact .inl ⟨mid, rfl, rfl⟩
      · exact .inr ⟨a :: read₁, read₂, rfl, rfl, rfl⟩

/-- the terminals of a form, in order -/
def Symbol.word (u : List Symbol) : List String := (u.filter Symbol.isTerminal).map Symbol.name

theorem Symbol.word_append (u v : List Symbol) : word (u ++ v) = word u ++ word v := by
  simp [word]

theorem Symbol.word_terminals (w : List String) : word (w.map .terminal) = w := by
  induction w with
  | nil => rfl
  | cons a w ih => exact congrArg (List.cons a) ih

namespace Growth

def symbol : Growth → Symbol
  | leaf n => .terminal n
  | pending l => .nonterminal l
  | branch l _ => .nonterminal l

mutual
def yield : Growth → List Symbol
  | leaf n => [.terminal n]
  | pending l => [.nonterminal l]
  | branch _ cs => yieldList cs
def yieldList : List Growth → List Symbol
  | [] => []
  | c :: cs => yield c ++ yieldList cs
end

theorem symbol_ofSymbol (s : Symbol) : (ofSymbol s).symbol = s := by
  cases s <;> rfl

theorem map_symbol_ofSymbol (body : List Symbol) : (body.map ofSymbol).map symbol = body := by
  rw [List.map_map]
  exact (List.map_congr_left fun s _ => symbol_ofSymbol s).trans (List.map_id body)

theorem yieldList_ofSymbol (body : List Symbol) : yieldList (body.map ofSymbol) = body := by
  induction body with
  | nil => rfl
  | cons s body ih =>
    rw [List.map_cons, yieldList, ih]
    cases s <;> rfl

/-! ## the leftmost pending node -/

/-- no node is pending -/
def Closed (g : Growth) : Prop := ∀ n, .nonterminal n ∉ g.yield

inductive ExpandsLeftmost (p : Production) : Growth → Growth → Prop where
  | here : ExpandsLeftmost p (pending p.head) (branch p.head (p.body.map ofSymbol))
  | under {l : String} {left right : List Growth} {c c' : Growth}
      (hleft : ∀ d ∈ left, Closed d) (h : ExpandsLeftmost p c c') :
      ExpandsLeftmost p (branch l (left ++ c :: right)) (branch l (left ++ c' :: right))

/-! ## productions in the tree -/

/-- every expanded node and its children are a production -/
inductive ValidFor (g : Grammar) : Growth → Prop where
  | leaf (n : String) : ValidFor g (leaf n)
  | pending (l : String) : ValidFor g (pending l)
  | branch {l : String} {cs : List Growth} (hp : ⟨l, cs.map symbol⟩ ∈ g.productions)
      (hcs : ∀ c ∈ cs, ValidFor g c) : ValidFor g (branch l cs)

variable {g : Grammar}

theorem validFor_ofSymbol (g : Grammar) (s : Symbol) : ValidFor g (ofSymbol s) := by
  cases s with
  | terminal n => exact .leaf n
  | nonterminal n => exact .pending n

theorem ExpandsLeftmost.symbol_eq {p : Production} {r r' : Growth} (h : ExpandsLeftmost p r r') :
    r'.symbol = r.symbol := by
  cases h with
  | here => rfl
  | under => rfl

theorem ExpandsLeftmost.validFor {p : Production} (hp : p ∈ g.productions) {r r' : Growth}
    (h : ExpandsLeftmost p r r') (hr : r.ValidFor g) : r'.ValidFor g := by
  induction h with
  | here =>
    refine .branch ?_ fun c hc => ?_
    · rwa [map_symbol_ofSymbol]
    · obtain ⟨s, _, rfl⟩ := List.mem_map.mp hc
      exact validFor_ofSymbol g s
  | @under l left right c c' _ h ih =>
    obtain _ | _ | ⟨hp, hcs⟩ := hr
    refine .branch ?_ fun d hd => ?_
    · rwa [List.map_append, List.map_cons, h.symbol_eq, ← List.map_cons, ← List.map_append]
    · rcases List.mem_append.mp hd with hd | hd
      · exact hcs d (List.mem_append_left _ hd)
      · rcases List.mem_cons.mp hd with rfl | hd
        · exact ih (hcs c (List.mem_append_right _ List.mem_cons_self))
        · exact hcs d (List.mem_append_right _ (List.mem_cons_of_mem _ hd))

/-! ## the finished tree -/

theorem root_toNode (r : Growth) (level : Nat) :
    (r.toNode level).label = r.symbol.name ∧ (r.toNode level).terminal = r.symbol.isTerminal := by
  cases r with
  | leaf n => exact ⟨rfl, rfl⟩
  | pending l => exact ⟨rfl, rfl⟩
  | branch l cs => exact ⟨rfl, rfl⟩

mutual
theorem leaves_toNode :
    ∀ (r : Growth) (level : Nat), (r.toNode level).terminals.map (·.label) = Symbol.word r.yield
  | leaf _, _ => rfl
  | pending _, _ => rfl
  | branch _ cs, level => leaves_toNodeList cs (level + 1)
theorem leaves_toNodeList : ∀ (cs : List Growth) (level : Nat),
    (TreeNode.terminalsList (toNodeList level cs)).map (·.label) = Symbol.word (yieldList cs)
  | [], _ => rfl
  | c :: cs, level => by
    rw [toNodeList, TreeNode.terminalsList, List.map_append, leaves_toNode c level,
      leaves_toNodeList cs level, ← Symbol.word_append]
    rfl
end

end Growth

end SpanishSyntax
