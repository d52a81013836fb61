import Mathlib.Data.List.Nodup
import SpanishSyntax.Proofs.Tree.Expansion
import SpanishSyntax.Tree.Arena

/-!
# Trees in an arena

A `Planted` tree is a growing tree whose nodes have slots.  It stands in an arena if the slots are
different and each holds its node with the slots of the children (`Planted.StandsIn`).

* `Planted.exists_filling`       the place of a pending node, and the tree with a body there;
* `Planted.StandsIn.hang`        hanging the body in the arena gives that tree;
* `Planted.StandsIn.isExact`     a tree is taken out of its slots as it is, and none is missed.
-/

namespace SpanishSyntax

inductive Planted where
  | leaf (slot : Nat) (terminal : String)
  | pending (slot : Nat) (label : String)
  | branch (slot : Nat) (label : String) (children : List Planted)

namespace Planted

def slot : Planted → Nat
  | leaf i _ => i
  | pending i _ => i
  | branch i _ _ => i

mutual
def growth : Planted → Growth
  | leaf _ n => .leaf n
  | pending _ l => .pending l
  | branch _ l cs => .branch l (growthList cs)
def growthList : List Planted → List Growth
  | [] => []
  | c :: cs => growth c :: growthList cs
end

mutual
/-- the slots of the pending nodes with their labels, from left to right -/
def pendings : Planted → List (Nat × String)
  | leaf _ _ => []
  | pending i l => [(i, l)]
  | branch _ _ cs => pendingsList cs
def pendingsList : List Planted → List (Nat × String)
  | [] => []
  | c :: cs => pendings c ++ pendingsList cs
end

mutual
/-- the slots with what is in them -/
def entries (level : Nat) : Planted → List (Nat × ArenaNode)
  | leaf i n => [(i, ⟨n, true, level, []⟩)]
  | pending i l => [(i, ⟨l, false, level, []⟩)]
  | branch i l cs => (i, ⟨l, false, level, cs.map slot⟩) :: entriesList (level + 1) cs
def entriesList (level : Nat) : List Planted → List (Nat × ArenaNode)
  | [] => []
  | c :: cs => entries level c ++ entriesList level cs
end

theorem growthList_append (cs ds : List Planted) :
    growthList (cs ++ ds) = growthList cs ++ growthList ds := by
  induction cs with
  | nil => rfl
  | cons c cs ih => rw [List.cons_append, growthList, growthList, ih, List.cons_append]

theorem pendingsList_append (cs ds : List Planted) :
    pendingsList (cs ++ ds) = pendingsList cs ++ pendingsList ds := by
  induction cs with
  | nil => rfl
  | cons c cs ih => rw [List.cons_append, pendingsList, pendingsList, ih, List.append_assoc]

theorem entriesList_append (level : Nat) (cs ds : List Planted) :
    entriesList level (cs ++ ds) = entriesList level cs ++ entriesList level ds := by
  induction cs with
  | nil => rfl
  | cons c cs ih => rw [List.cons_append, entriesList, entriesList, ih, List.append_assoc]

mutual
theorem names_pendings :
    ∀ p : Planted, p.pendings.map Prod.snd = Symbol.nonterminals p.growth.yield
  | leaf _ _ => rfl
  | pending _ _ => rfl
  | branch _ _ cs => names_pendingsList cs
theorem names_pendingsList : ∀ cs : List Planted,
    (pendingsList cs).map Prod.snd = Symbol.nonterminals (Growth.yieldList (growthList cs))
  | [] => rfl
  | c :: cs => by
    rw [pendingsList, growthList, Growth.yieldList, Symbol.nonterminals_append, List.map_append,
      names_pendings c, names_pendingsList cs]
end

/-! ## a body in the next slots -/

def ofSymbol (slot : Nat) : Symbol → Planted
  | .terminal n => leaf slot n
  | .nonterminal n => pending slot n

def ofBody (slot : Nat) : List Symbol → List Planted
  | [] => []
  | s :: body => ofSymbol slot s :: ofBody (slot + 1) body

theorem growthList_ofBody (slot : Nat) (body : List Symbol) :
    growthList (ofBody slot body) = body.map Growth.ofSymbol := by
  induction body generalizing slot with
  | nil => rfl
  | cons s body ih =>
    rw [ofBody, growthList, ih, List.map_cons]
    cases s <;> rfl

theorem slots_ofBody (start : Nat) (body : List Symbol) :
    (ofBody start body).map slot = List.range' start body.length := by
  induction body generalizing start with
  | nil => rfl
  | cons s body ih =>
    rw [ofBody, List.map_cons, ih, List.length_cons, List.range'_succ]
    cases s <;> rfl

/-- the nodes of a body in the arena -/
def nodes (level : Nat) (body : List Symbol) : List ArenaNode :=
  body.map fun s => ⟨s.name, s.isTerminal, level, []⟩

theorem entries_ofSymbol (level slot : Nat) (s : Symbol) :
    entries level (ofSymbol slot s) = [(slot, ⟨s.name, s.isTerminal, level, []⟩)] := by
  cases s <;> rfl

theorem entriesList_ofBody (level start : Nat) (body : List Symbol) :
    entriesList level (ofBody start body) = ((nodes level body).zipIdx start).map Prod.swap := by
  induction body generalizing start with
  | nil => rfl
  | cons s body ih =>
    rw [ofBody, entriesList, entries_ofSymbol, ih]
    rfl

theorem slots_entriesList_ofBody (level start : Nat) (body : List Symbol) :
    (entriesList level (ofBody start body)).map Prod.fst = List.range' start body.length := by
  rw [entriesList_ofBody, List.map_map, ← List.length_map, ← List.zipIdx_map_snd]
  rfl

theorem mem_entriesList_ofBody {level start : Nat} {body : List Symbol} {e : Nat × ArenaNode} :
    e ∈ entriesList level (ofBody start body) ↔
      start ≤ e.1 ∧ (nodes level body)[e.1 - start]? = some e.2 := by
  rw [entriesList_ofBody, List.mem_map, ← List.mk_mem_zipIdx_iff_le_and_getElem?_sub]
  constructor
  · rintro ⟨⟨node, i⟩, hmem, rfl⟩
    exact hmem
  · exact fun hmem => ⟨(e.2, e.1), hmem, rfl⟩

/-! ## the place of a pending node -/

section
variable {start slot : Nat} {n : String} {body : List Symbol} {before after : List (Nat × String)}

/-- the tree with a body in the place of the pending node `n` -/
structure Filling (start slot : Nat) (n : String) (body : List Symbol)
    (before after : List (Nat × String)) (level : Nat) (p p' : Planted) : Prop where
  slot_eq : p'.slot = p.slot
  pendings : p'.pendings = before ++ (pendingsList (ofBody start body) ++ after)
  growth : n ∉ before.map Prod.snd → p.growth.Expands n body p'.growth
  entries : ∃ deep rest, (p.entries level).Perm ((slot, ⟨n, false, deep, []⟩) :: rest) ∧
    (p'.entries level).Perm ((slot, ⟨n, false, deep, List.range' start body.length⟩) ::
      (entriesList (deep + 1) (ofBody start body) ++ rest))

theorem append_eq_append_cons {α : Type} {x : α} {u v left right : List α}
    (h : u ++ v = left ++ x :: right) :
    (∃ mid, u = left ++ x :: mid ∧ right = mid ++ v) ∨
      ∃ mid, left = u ++ mid ∧ v = mid ++ x :: right := by
  rcases List.append_eq_append_iff.mp h with ⟨mid, hleft, hv⟩ | ⟨mid, hu, hright⟩
  · exact .inr ⟨mid, hleft, hv⟩
  · cases mid with
    | nil => exact .inr ⟨[], by simpa using hu.symm, hright.symm⟩
    | cons y mid =>
      obtain ⟨rfl, hrest⟩ := List.cons.inj hright
      exact .inl ⟨mid, hu, hrest⟩

/-- what stands around a list goes to the rest of it -/
theorem perm_around {α : Type} [DecidableEq α] {x : α} {new rest here : List α}
    (h : here.Perm (x :: (new ++ rest))) (root : α) (left right : List α) :
    (root :: (left ++ (here ++ right))).Perm (x :: (new ++ root :: (left ++ (rest ++ right)))) := by
  rw [List.perm_iff_count] at h ⊢
  intro y
  have hy := h y
  simp only [List.count_cons, List.count_append] at hy ⊢
  omega

theorem Filling.under {level : Nat} {left right : List Planted} {c c' : Planted}
    (h : Filling start slot n body before after (level + 1) c c') (i : Nat) (l : String) :
    Filling start slot n body (pendingsList left ++ before) (after ++ pendingsList right) level
      (branch i l (left ++ c :: right)) (branch i l (left ++ c' :: right)) := by
  obtain ⟨hslot, hpendings, hgrowth, deep, rest, hperm, hperm'⟩ := h
  have hslots : (left ++ c' :: right).map Planted.slot = (left ++ c :: right).map Planted.slot := by
    rw [List.map_append, List.map_append, List.map_cons, List.map_cons, hslot]
  refine ⟨rfl, ?_, fun hnot => ?_, deep,
    (i, ⟨l, false, level, (left ++ c :: right).map Planted.slot⟩) ::
      (entriesList (level + 1) left ++ (rest ++ entriesList (level + 1) right)), ?_, ?_⟩
  · rw [Planted.pendings, pendingsList_append, pendingsList, hpendings]
    simp only [List.append_assoc]
  · rw [List.map_append, List.mem_append, not_or] at hnot
    rw [Planted.growth, Planted.growth, growthList_append, growthList_append, growthList,
      growthList]
    refine .under (fun d hd hmem => hnot.1 ?_) (hgrowth hnot.2)
    rw [names_pendingsList, Symbol.mem_nonterminals]
    exact Growth.mem_yieldList.mpr ⟨d, hd, hmem⟩
  · rw [Planted.entries, entriesList_append, entriesList]
    have hnone : (Planted.entries (level + 1) c).Perm
        ((slot, ⟨n, false, deep, []⟩) :: ([] ++ rest)) := hperm
    exact perm_around hnone _ _ _
  · rw [Planted.entries, entriesList_append, entriesList, hslots]
    exact perm_around hperm' _ _ _

mutual
theorem exists_filling (start : Nat) (body : List Symbol) :
    ∀ (p : Planted) (level : Nat) (before after : List (Nat × String)),
      p.pendings = before ++ (slot, n) :: after →
      ∃ p', Filling start slot n body before after level p p'
  | leaf _ _, _, _, _, h => by simp [pendings] at h
  | pending i l, level, before, after, h => by
    rcases List.append_eq_singleton_iff.mp h.symm with ⟨rfl, hmid⟩ | ⟨_, hmid⟩
    · obtain ⟨hfirst, rfl⟩ := List.cons.inj hmid
      obtain ⟨rfl, rfl⟩ := Prod.mk.inj hfirst
      refine ⟨branch slot n (ofBody start body), rfl, ?_, fun _ => ?_, level, [], .refl _, ?_⟩
      · rw [List.append_nil]
        rfl
      · rw [Planted.growth, Planted.growth, growthList_ofBody]
        exact .here
      · rw [Planted.entries, slots_ofBody, List.append_nil]
    · cases hmid
  | branch i l cs, level, before, after, h => by
    obtain ⟨left, c, c', right, before', after', rfl, rfl, rfl, hc⟩ :=
      exists_fillingList start body cs (level + 1) before after h
    exact ⟨branch i l (left ++ c' :: right), hc.under i l⟩
theorem exists_fillingList (start : Nat) (body : List Symbol) :
    ∀ (cs : List Planted) (level : Nat) (before after : List (Nat × String)),
      pendingsList cs = before ++ (slot, n) :: after →
      ∃ left c c' right before' after', cs = left ++ c :: right ∧
        before = pendingsList left ++ before' ∧ after = after' ++ pendingsList right ∧
        Filling start slot n body before' after' level c c'
  | [], _, _, _, h => by simp [pendingsList] at h
  | c :: cs, level, before, after, h => by
    rcases append_eq_append_cons h with ⟨mid, hc, rfl⟩ | ⟨mid, rfl, hcs⟩
    · obtain ⟨c', hc'⟩ := exists_filling start body c level before mid hc
      exact ⟨[], c, c', cs, before, mid, rfl, rfl, rfl, hc'⟩
    · obtain ⟨left, d, d', right, before', after', rfl, rfl, rfl, hd⟩ :=
        exists_fillingList start body cs level mid after hcs
      refine ⟨c :: left, d, d', right, before', after', rfl, ?_, rfl, hd⟩
      rw [pendingsList, List.append_assoc]
end

end

/-- the tree has its root on level zero, and each node has a slot of its own -/
structure StandsIn (p : Planted) (a : Arena) : Prop where
  nodup : ((p.entries 0).map Prod.fst).Nodup
  entries : ∀ e ∈ p.entries 0, a.nodes[e.1]? = some e.2

end Planted

namespace Arena

open Planted

section
variable {a : Arena} {parent level : Nat}

theorem modify_append {α : Type} {u : List α} {i : Nat} (h : i < u.length) (v : List α)
    (f : α → α) : (u ++ v).modify i f = u.modify i f ++ v := by
  refine List.ext_getElem? fun j => ?_
  rw [List.getElem?_modify, List.getElem?_append, List.getElem?_append, List.getElem?_modify,
    List.length_modify]
  by_cases hj : j < u.length
  · rw [if_pos hj, if_pos hj]
  · have hij : i ≠ j := fun hij => hj (hij ▸ h)
    rw [if_neg hj, if_neg hj]
    simp [hij]

theorem nodes_addChild_push (hlt : parent < a.nodes.length) (level : Nat) (s : Symbol) :
    ((a.push s.name s.isTerminal level).addChild parent a.nodes.length).nodes =
      a.nodes.modify parent (fun n => { n with children := n.children ++ [a.nodes.length] }) ++
        [⟨s.name, s.isTerminal, level, []⟩] :=
  modify_append hlt _ _

theorem length_addChild_push (a : Arena) (parent level slot : Nat) (s : Symbol) :
    ((a.push s.name s.isTerminal level).addChild parent slot).nodes.length =
      a.nodes.length + 1 := by
  rw [addChild, List.length_modify, push, List.length_append, List.length_singleton]

/-- a body is hung below a node child by child -/
theorem nodes_hang (hlt : parent < a.nodes.length) (body : List Symbol) :
    (a.hang parent level body).1.nodes = a.nodes.modify parent (fun n =>
      { n with children := n.children ++ List.range' a.nodes.length body.length }) ++
        Planted.nodes level body := by
  induction body generalizing a with
  | nil =>
    show a.nodes = a.nodes.modify parent (fun n => { n with children := n.children ++ [] }) ++ []
    simp only [List.append_nil]
    exact (List.modify_id parent a.nodes).symm
  | cons s body ih =>
    have hnodes := nodes_addChild_push hlt level s
    have hlength := length_addChild_push a parent level a.nodes.length s
    have hmodified : parent < (a.nodes.modify parent fun n =>
        { n with children := n.children ++ [a.nodes.length] }).length := by
      rwa [List.length_modify]
    rw [hang, ih (by omega), hlength, hnodes, modify_append hmodified, List.modify_modify_eq,
      List.append_assoc, List.length_cons, List.range'_succ]
    simp [Function.comp_def, Planted.nodes]

theorem snd_hang (body : List Symbol) : (a.hang parent level body).2 =
    (pendingsList (ofBody a.nodes.length body)).map Prod.fst := by
  induction body generalizing a with
  | nil => rfl
  | cons s body ih =>
    have hlength := length_addChild_push a parent level a.nodes.length s
    rw [hang, ofBody, pendingsList, List.map_append, ← hlength, ← ih]
    cases s <;> rfl

end

end Arena

namespace Planted

variable {p : Planted} {a : Arena} {slot : Nat} {n : String} {before after : List (Nat × String)}

theorem StandsIn.lt_length (h : p.StandsIn a) {e : Nat × ArenaNode} (he : e ∈ p.entries 0) :
    e.1 < a.nodes.length :=
  (List.getElem?_eq_some_iff.mp (h.entries e he)).1

theorem StandsIn.label?_eq (h : p.StandsIn a) : ∀ e ∈ p.pendings, a.label? e.1 = some e.2 := by
  rintro ⟨slot, n⟩ he
  obtain ⟨before, after, hpending⟩ := List.append_of_mem he
  obtain ⟨p', hfill⟩ := exists_filling 0 [] p 0 before after hpending
  obtain ⟨deep, rest, hold, -⟩ := hfill.entries
  rw [Arena.label?, h.entries _ (hold.mem_iff.mpr List.mem_cons_self)]
  rfl

/-- a body below a pending node, in the arena and in the tree -/
theorem StandsIn.hang (h : p.StandsIn a) (hpending : p.pendings = before ++ (slot, n) :: after)
    (body : List Symbol) : ∃ p', Filling a.nodes.length slot n body before after 0 p p' ∧
      p'.StandsIn (a.hang slot (a.levelAt slot + 1) body).1 := by
  obtain ⟨p', hfill⟩ := exists_filling a.nodes.length body p 0 before after hpending
  obtain ⟨deep, rest, hold, hnew⟩ := hfill.entries
  have hslot : a.nodes[slot]? = some ⟨n, false, deep, []⟩ :=
    h.entries _ (hold.mem_iff.mpr List.mem_cons_self)
  have hlevel : a.levelAt slot = deep := by
    rw [Arena.levelAt, hslot]
    rfl
  have hlt : slot < a.nodes.length := (List.getElem?_eq_some_iff.mp hslot).1
  have hrest : ∀ e ∈ rest, e.1 < a.nodes.length ∧ a.nodes[e.1]? = some e.2 := fun e he => by
    have hmem := hold.mem_iff.mpr (List.mem_cons_of_mem _ he)
    exact ⟨h.lt_length hmem, h.entries e hmem⟩
  have hnodup := ((hold.map Prod.fst).nodup_iff).mp h.nodup
  obtain ⟨hother, hnodup⟩ := List.nodup_cons.mp hnodup
  refine ⟨p', hfill, ?_, fun e he => ?_⟩
  · -- the new slots lie behind the others
    rw [(hnew.map Prod.fst).nodup_iff, List.map_cons, List.map_append, slots_entriesList_ofBody,
      List.nodup_cons, List.nodup_append, List.mem_append]
    refine ⟨not_or.mpr ⟨fun hmem => ?_, hother⟩, List.nodup_range', hnodup, fun i hi j hj => ?_⟩
    · have hle := (List.mem_range'_1.mp hmem).1
      omega
    · have hle := (List.mem_range'_1.mp hi).1
      obtain ⟨e, he, rfl⟩ := List.mem_map.mp hj
      have hlt := (hrest e he).1
      omega
  · rw [Arena.nodes_hang hlt, hlevel]
    rcases List.mem_cons.mp (hnew.mem_iff.mp he) with rfl | he
    · rw [List.getElem?_append_left (by rwa [List.length_modify]), List.getElem?_modify, hslot]
      simp
    · rcases List.mem_append.mp he with he | he
      · obtain ⟨hle, hnode⟩ := mem_entriesList_ofBody.mp he
        rw [List.getElem?_append_right (by rwa [List.length_modify]), List.length_modify, hnode]
      · obtain ⟨hlt, hnode⟩ := hrest e he
        have hne : slot ≠ e.1 := fun heq => hother (List.mem_map.mpr ⟨e, he, heq.symm⟩)
        rw [List.getElem?_append_left (by rwa [List.length_modify]), List.getElem?_modify, hnode]
        simp [hne]

end Planted

/-! ## taking a tree out -/

namespace Arena

namespace Slots

variable {slots : Slots} {slot i : Nat}

theorem node?_takeOut_of_ne (h : i ≠ slot) : (slots.takeOut slot).node? i = slots.node? i := by
  rw [node?, node?, takeOut, List.getElem?_set_ne (Ne.symm h)]

end Slots

variable {slots : Slots}

/-- the result, with no slot found empty and no other slot touched -/
structure Taken.IsExact {α : Type} (t : Taken slots α) (result : α) (used : List Nat) : Prop where
  result_eq : t.result = result
  missed_eq : t.missed = []
  kept : ∀ i ∉ used, t.slots'.node? i = slots.node? i

theorem isExact_materialize {slot : Nat} {node : ArenaNode} (h : slots.node? slot = some node)
    {cs : List TreeNode} {used : List Nat}
    (hcs : (materializeList (slots.takeOut slot) node.children).IsExact cs used) :
    (materialize slots slot).IsExact ⟨node.label, node.terminal, node.level, none, cs⟩
      (slot :: used) := by
  rw [materialize]
  split
  · rename_i hnone
    rw [h] at hnone
    cases hnone
  · rename_i found hfound
    obtain rfl := Option.some.inj (h.symm.trans hfound)
    refine ⟨?_, hcs.missed_eq, fun i hi => ?_⟩
    · rw [← hcs.result_eq]
    · obtain ⟨hne, hi⟩ := not_or.mp (mt List.mem_cons.mpr hi)
      exact (hcs.kept i hi).trans (Slots.node?_takeOut_of_ne hne)

theorem isExact_materializeList_nil : (materializeList slots []).IsExact [] [] := by
  rw [materializeList]
  exact ⟨rfl, rfl, fun _ _ => rfl⟩

theorem isExact_materializeList_cons {c : Nat} {cs : List Nat} {t : TreeNode} {ts : List TreeNode}
    {used used' : List Nat} (h : (materialize slots c).IsExact t used)
    (hs : (materializeList (materialize slots c).slots' cs).IsExact ts used') :
    (materializeList slots (c :: cs)).IsExact (t :: ts) (used ++ used') := by
  rw [materializeList]
  refine ⟨?_, ?_, fun i hi => ?_⟩
  · rw [← h.result_eq, ← hs.result_eq]
  · show _ ++ _ = _
    rw [h.missed_eq, hs.missed_eq]
    rfl
  · obtain ⟨hi, hi'⟩ := not_or.mp (mt List.mem_append.mpr hi)
    exact (hs.kept i hi').trans (h.kept i hi)

end Arena

namespace Planted

open Arena

mutual
theorem isExact_tree : ∀ (p : Planted) (level : Nat) (slots : Slots),
    ((p.entries level).map Prod.fst).Nodup → (∀ e ∈ p.entries level, slots.node? e.1 = some e.2) →
    (materialize slots p.slot).IsExact (p.growth.toNode level) ((p.entries level).map Prod.fst)
  | leaf i n, level, slots, _, h =>
    isExact_materialize (h _ (List.mem_singleton_self _)) isExact_materializeList_nil
  | pending i l, level, slots, _, h =>
    isExact_materialize (h _ (List.mem_singleton_self _)) isExact_materializeList_nil
  | branch i l cs, level, slots, hnodup, h => by
    obtain ⟨hi, hnodup⟩ := List.nodup_cons.mp hnodup
    obtain ⟨hroot, hcs⟩ := List.forall_mem_cons.mp h
    refine isExact_materialize hroot (isExact_treeList cs (level + 1) _ hnodup fun e he => ?_)
    -- the root is no slot below it
    have hne : e.1 ≠ i := fun heq => hi (List.mem_map.mpr ⟨e, he, heq⟩)
    rw [Slots.node?_takeOut_of_ne hne]
    exact hcs e he
theorem isExact_treeList : ∀ (cs : List Planted) (level : Nat) (slots : Slots),
    ((entriesList level cs).map Prod.fst).Nodup →
    (∀ e ∈ entriesList level cs, slots.node? e.1 = some e.2) →
    (materializeList slots (cs.map slot)).IsExact (Growth.toNodeList level (growthList cs))
      ((entriesList level cs).map Prod.fst)
  | [], _, _, _, _ => isExact_materializeList_nil
  | c :: cs, level, slots, hnodup, h => by
    rw [entriesList, List.map_append] at hnodup ⊢
    obtain ⟨hc, hcs, hdisjoint⟩ := List.nodup_append.mp hnodup
    obtain ⟨hfirst, hlater⟩ := List.forall_mem_append.mp h
    have hexact := isExact_tree c level slots hc hfirst
    refine isExact_materializeList_cons hexact (isExact_treeList cs level _ hcs fun e he => ?_)
    have hkept : e.1 ∉ (c.entries level).map Prod.fst := fun hmem =>
      hdisjoint _ hmem _ (List.mem_map_of_mem he) rfl
    rw [hexact.kept e.1 hkept]
    exact hlater e he
end

theorem StandsIn.isExact {p : Planted} {a : Arena} (h : p.StandsIn a) (hslot : p.slot = 0) :
    a.tree.result = p.growth.toNode 0 ∧ a.tree.missed = [] := by
  have hnodes : ∀ e ∈ p.entries 0, Slots.node? (a.nodes.map some) e.1 = some e.2 := by
    intro e he
    rw [Slots.node?, List.getElem?_map, h.entries e he]
    rfl
  have hexact := isExact_tree p 0 _ h.nodup hnodes
  rw [hslot] at hexact
  exact ⟨hexact.result_eq, hexact.missed_eq⟩

end Planted

end SpanishSyntax
