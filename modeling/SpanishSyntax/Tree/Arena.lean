import SpanishSyntax.Tree.Replay

/-!
# Trees replayed in an arena

The nodes of a growing tree stand in numbered slots, and each lists the slots of its children.
The frontier lists the slots of the pending nodes from left to right.  An expansion looks for its
label in the frontier and for its nonterminal in the sentential form, in each without regard to the
other, and puts a body in the place of what it finds.  At the end the nodes are taken out of their
slots, from the root on; for a slot that is empty by then a bare `S` stands in.

`SyntaxTree.ofTrace` gives the same trees without slots.
-/

namespace SpanishSyntax

structure ArenaNode where
  label : String
  terminal : Bool
  level : Nat
  children : List Nat
  deriving DecidableEq, Repr

structure Arena where
  nodes : List ArenaNode
  deriving DecidableEq, Repr

namespace Arena

def label? (a : Arena) (slot : Nat) : Option String := a.nodes[slot]?.map (·.label)

/-- the level of a node, zero where there is none -/
def levelAt (a : Arena) (slot : Nat) : Nat := a.nodes[slot]?.elim 0 (·.level)

/-- a new node in the next slot -/
def push (a : Arena) (label : String) (terminal : Bool) (level : Nat) : Arena :=
  ⟨a.nodes ++ [⟨label, terminal, level, []⟩]⟩

def addChild (a : Arena) (parent child : Nat) : Arena :=
  ⟨a.nodes.modify parent fun n => { n with children := n.children ++ [child] }⟩

/-- hangs the symbols of a body under a node; with the slots of the nonterminals -/
def hang (parent level : Nat) (a : Arena) : List Symbol → Arena × List Nat
  | [] => (a, [])
  | s :: body =>
    let child := a.nodes.length
    let r := hang parent level ((a.push s.name s.isTerminal level).addChild parent child) body
    (r.1, if s.isTerminal then r.2 else child :: r.2)

/-! ## taking the nodes out -/

abbrev Slots := List (Option ArenaNode)

namespace Slots

def node? (slots : Slots) (slot : Nat) : Option ArenaNode := slots[slot]?.join

def takeOut (slots : Slots) (slot : Nat) : Slots := slots.set slot none

/-- the number of nodes that are still there -/
def filled (slots : Slots) : Nat := slots.countP Option.isSome

theorem filled_takeOut {slots : Slots} {slot : Nat} {node : ArenaNode}
    (h : slots.node? slot = some node) : (slots.takeOut slot).filled < slots.filled := by
  obtain ⟨hlt, hget⟩ := List.getElem?_eq_some_iff.mp (Option.join_eq_some_iff.mp h)
  have hsome : slots[slot].isSome = true := by rw [hget]; rfl
  have hpos : 0 < slots.countP Option.isSome :=
    List.countP_pos_iff.mpr ⟨slots[slot], List.getElem_mem hlt, hsome⟩
  rw [filled, filled, takeOut, List.countP_set hlt, if_pos hsome, Option.isSome_none,
    if_neg Bool.false_ne_true]
  omega

end Slots

/-- what was made of nodes from the slots: the slots after it, and those that were found empty -/
structure Taken (slots : Slots) (α : Type) where
  result : α
  slots' : Slots
  missed : List Nat
  filled_le : slots'.filled ≤ slots.filled

mutual
/-- the tree below a slot -/
def materialize (slots : Slots) (slot : Nat) : Taken slots TreeNode :=
  match h : slots.node? slot with
  | none => ⟨⟨"S", false, 0, none, []⟩, slots, [slot], Nat.le_refl _⟩
  | some n =>
    have hlt := Slots.filled_takeOut h
    let r := materializeList (slots.takeOut slot) n.children
    ⟨⟨n.label, n.terminal, n.level, none, r.result⟩, r.slots', r.missed,
      Nat.le_trans r.filled_le (Nat.le_of_lt hlt)⟩
termination_by (slots.filled, 0)
decreasing_by exact .left _ _ hlt
def materializeList (slots : Slots) (children : List Nat) : Taken slots (List TreeNode) :=
  match children with
  | [] => ⟨[], slots, [], Nat.le_refl _⟩
  | c :: cs =>
    let r := materialize slots c
    let rs := materializeList r.slots' cs
    ⟨r.result :: rs.result, rs.slots', r.missed ++ rs.missed, Nat.le_trans rs.filled_le r.filled_le⟩
termination_by (slots.filled, children.length + 1)
decreasing_by
  · exact .right _ (Nat.succ_pos _)
  · exact Prod.Lex.right' _ r.filled_le (Nat.lt_succ_self _)
end

/-- the tree with its root in the first slot -/
def tree (a : Arena) : Taken (a.nodes.map some) TreeNode := materialize (a.nodes.map some) 0

end Arena

/-- the derivation is numbered already -/
structure ArenaReplay where
  arena : Arena
  frontier : List Nat
  form : List Symbol
  derivation : List String
  deriving DecidableEq, Repr

namespace ArenaReplay

def start (label : String) : ArenaReplay :=
  ⟨⟨[⟨label, false, 0, []⟩]⟩, [0], [.nonterminal label], ["1. " ++ label]⟩

/-- the labels along the frontier -/
def labels (b : ArenaReplay) : List (Option String) := b.frontier.map b.arena.label?

/-- expands the first node of the frontier with that label -/
def expand? (b : ArenaReplay) (nonterminal : String) (body : List Symbol) : Option ArenaReplay :=
  let other := fun slot => b.arena.label? slot != some nonterminal
  match b.frontier.dropWhile other with
  | [] => none
  | parent :: behind =>
    let hung := b.arena.hang parent (b.arena.levelAt parent + 1) body
    let form := rewriteLeftmost nonterminal body b.form
    some ⟨hung.1, b.frontier.takeWhile other ++ (hung.2 ++ behind), form,
      b.derivation ++ [toString (b.derivation.length + 1) ++ ". " ++ Symbol.sequenceText form]⟩

/-- replays steps up to an expansion that finds no node -/
def run (b : ArenaReplay) : List Parse.TraceStep → ArenaReplay
  | [] => b
  | s :: steps =>
    match s.action.expansion? with
    | none => b.run steps
    | some e =>
      match b.expand? e.1 e.2 with
      | none => b
      | some b' => b'.run steps

def toTree (b : ArenaReplay) : SyntaxTree := ⟨b.arena.tree.result, b.derivation, false⟩

/-- the replay of a trace from its root on -/
def ofTrace (steps : List Parse.TraceStep) : ArenaReplay :=
  (start (SyntaxTree.rootLabel steps)).run steps

end ArenaReplay

end SpanishSyntax
