import SpanishSyntax.Proofs.Text.Runs
import SpanishSyntax.Proofs.Tree.Planted

/-!
# Replaying any trace

The arena, the frontier and the sentential form are searched and spliced each on its own, and a
trace can name pending nodes in any order.  `ArenaReplay.Shows` is the invariant that ties the three
to one `Planted` tree and to the replay without slots.  A step either expands in all of them or
stops (`ArenaReplay.Shows.step`, `ArenaReplay.Shows.stop`), so every run keeps it up to the place
where it stops (`ArenaReplay.Shows.exists_stops`).

* `ArenaReplay.exists_replays`   what this gives for the replay of any list of steps.
-/

namespace SpanishSyntax

theorem getElem?_numberedFrom (n k : Nat) (ls : List String) :
    (numberedFrom n ls)[k]? = ls[k]?.map fun l => toString (n + k) ++ ". " ++ l := by
  induction ls generalizing n k with
  | nil => rfl
  | cons l ls ih =>
    cases k with
    | zero => rfl
    | succ k =>
      rw [numberedFrom, List.getElem?_cons_succ, ih, List.getElem?_cons_succ, Nat.add_right_comm,
        Nat.add_assoc]

theorem numberedFrom_concat (n : Nat) (ls : List String) (l : String) :
    numberedFrom n (ls ++ [l]) =
      numberedFrom n ls ++ [toString (n + ls.length) ++ ". " ++ l] := by
  induction ls generalizing n with
  | nil => rfl
  | cons m ls ih =>
    rw [List.cons_append, numberedFrom, numberedFrom, ih, List.length_cons, List.cons_append,
      Nat.add_right_comm, Nat.add_assoc]

namespace ArenaReplay

open Parse Planted

/-- the replay shows the tree in its arena, along its frontier, in its form and in its derivation -/
structure Shows (p : Planted) (b : ArenaReplay) (r : Replay) : Prop where
  slot : p.slot = 0
  standsIn : p.StandsIn b.arena
  frontier : b.frontier = p.pendings.map Prod.fst
  growth : p.growth = r.growth
  form : b.form = r.form
  yield : r.growth.yield = r.form
  derivation : b.derivation = numberedFrom 1 (r.forms.map Symbol.sequenceText)

theorem shows_start (label : String) :
    Shows (.pending 0 label) (start label) (Replay.start label) where
  slot := rfl
  standsIn := ⟨List.nodup_singleton 0, List.forall_mem_singleton.mpr rfl⟩
  frontier := rfl
  growth := rfl
  form := rfl
  yield := rfl
  derivation := rfl

variable {p : Planted} {b : ArenaReplay} {r : Replay} {n : String}

theorem Shows.labels_eq (h : Shows p b r) : b.labels = (Symbol.nonterminals b.form).map some := by
  rw [labels, h.frontier, h.form, ← h.yield, ← h.growth, ← names_pendings, List.map_map,
    List.map_map]
  exact List.map_congr_left h.standsIn.label?_eq

theorem Shows.mem_labels (h : Shows p b r) :
    some n ∈ b.labels ↔ .nonterminal n ∈ r.growth.yield := by
  rw [h.labels_eq, h.form, h.yield, ← Symbol.mem_nonterminals]
  simp

/-! ## a step -/

theorem Shows.stop (h : Shows p b r) (hn : some n ∉ b.labels) (body : List Symbol) :
    b.expand? n body = none ∧ r.grow? n body = none := by
  constructor
  · have hother : ∀ slot ∈ b.frontier, (b.arena.label? slot != some n) = true := by
      intro slot hslot
      refine bne_iff_ne.mpr fun hlabel => hn ?_
      rw [← hlabel]
      exact List.mem_map_of_mem hslot
    rw [expand?, List.dropWhile_eq_nil_iff.mpr hother]
  · rw [h.mem_labels] at hn
    rw [Replay.grow?, Growth.expand?_of_not_mem n body _ hn]
    rfl

/-- the first place of a label in the frontier is the leftmost pending node with it -/
theorem Shows.exists_first (h : Shows p b r) (hn : some n ∈ b.labels) :
    ∃ before slot after, p.pendings = before ++ (slot, n) :: after ∧ n ∉ before.map Prod.snd ∧
      b.frontier.takeWhile (fun i => b.arena.label? i != some n) = before.map Prod.fst ∧
      b.frontier.dropWhile (fun i => b.arena.label? i != some n) = slot :: after.map Prod.fst := by
  have hmem : n ∈ p.pendings.map Prod.snd := by
    rw [names_pendings, h.growth, Symbol.mem_nonterminals]
    exact h.mem_labels.mp hn
  -- the pending nodes are split where the label comes first
  obtain ⟨left, right, hnames, hleft⟩ := List.eq_append_cons_of_mem hmem
  obtain ⟨before, rest, hpending, rfl, hrest⟩ := List.map_eq_append_iff.mp hnames
  obtain ⟨⟨slot, m⟩, after, rfl, hm, rfl⟩ := List.map_eq_cons_iff.mp hrest
  obtain rfl : n = m := hm.symm
  have hlabels := h.standsIn.label?_eq
  rw [hpending] at hlabels
  obtain ⟨hbefore, hbehind⟩ := List.forall_mem_append.mp hlabels
  have hother : ∀ i ∈ before.map Prod.fst, (b.arena.label? i != some n) = true := by
    intro i hi
    obtain ⟨e, he, rfl⟩ := List.mem_map.mp hi
    rw [hbefore e he, bne_iff_ne]
    exact fun hname => hleft (List.mem_map.mpr ⟨e, he, Option.some.inj hname⟩)
  have hslot : ∀ i ∈ (slot :: after.map Prod.fst).head?, (b.arena.label? i != some n) = false := by
    intro i hi
    obtain rfl := Option.some.inj hi
    rw [hbehind (slot, n) List.mem_cons_self, bne_self_eq_false]
  refine ⟨before, slot, after, hpending, hleft, ?_, ?_⟩
  · rw [h.frontier, hpending, List.map_append]
    exact Text.takeWhile_run hother hslot
  · rw [h.frontier, hpending, List.map_append]
    exact Text.dropWhile_run hother hslot

theorem Shows.step (h : Shows p b r) (hn : some n ∈ b.labels) (body : List Symbol) :
    ∃ p' b' r', b.expand? n body = some b' ∧ r.grow? n body = some r' ∧ Shows p' b' r' := by
  obtain ⟨before, slot, after, hpending, hleft, htake, hdrop⟩ := h.exists_first hn
  obtain ⟨p', hfill, hstands⟩ := h.standsIn.hang hpending body
  have hexp : r.growth.Expands n body p'.growth := h.growth ▸ hfill.growth hleft
  have hgrow : r.grow? n body =
      some ⟨p'.growth, rewriteLeftmost n body r.form, r.form :: r.earlier⟩ := by
    rw [Replay.grow?, hexp.expand?_eq]
    rfl
  have hexpand : b.expand? n body = some
      ⟨(b.arena.hang slot (b.arena.levelAt slot + 1) body).1, before.map Prod.fst ++
        ((b.arena.hang slot (b.arena.levelAt slot + 1) body).2 ++ after.map Prod.fst),
        rewriteLeftmost n body b.form,
        b.derivation ++ [toString (b.derivation.length + 1) ++ ". " ++
          Symbol.sequenceText (rewriteLeftmost n body b.form)]⟩ := by
    unfold expand?
    dsimp only
    rw [hdrop]
    dsimp only
    rw [htake]
  refine ⟨p', _, _, hexpand, hgrow, {
    slot := hfill.slot_eq.trans h.slot
    standsIn := hstands
    frontier := ?_
    growth := rfl
    form := congrArg _ h.form
    yield := Replay.yield_eq_of_grow? hgrow h.yield
    derivation := ?_ }⟩
  · rw [hfill.pendings, List.map_append, List.map_append, Arena.snd_hang]
  · rw [Replay.forms_of_grow? hgrow, List.map_append, List.map_singleton, numberedFrom_concat,
      ← h.derivation, h.form, List.length_map, h.derivation, length_numberedFrom, List.length_map,
      Nat.add_comm 1]

/-! ## a run -/

/-- what is true of the replay and of the tree so far whenever a step is done -/
structure Agrees (b : ArenaReplay) (r : Replay) : Prop where
  labels : b.labels = (Symbol.nonterminals b.form).map some
  form : b.form = r.growth.yield
  tree : b.arena.tree.result = r.growth.toNode 0
  missed : b.arena.tree.missed = []
  levels : b.arena.tree.result.LevelsFrom 0

theorem Shows.agrees (h : Shows p b r) : b.Agrees r := by
  obtain ⟨htree, hmissed⟩ := h.standsIn.isExact h.slot
  rw [h.growth] at htree
  refine ⟨h.labels_eq, h.form.trans h.yield.symm, htree, hmissed, ?_⟩
  rw [htree]
  exact Growth.levelsFrom_toNode r.growth 0

section
variable {s : TraceStep} {e : String × List Symbol} {b' : ArenaReplay} (steps : List TraceStep)

theorem run_cons_of_none (hs : s.action.expansion? = none) : b.run (s :: steps) = b.run steps := by
  rw [run, hs]

theorem run_cons_of_expand? (hs : s.action.expansion? = some e) (he : b.expand? e.1 e.2 = some b') :
    b.run (s :: steps) = b'.run steps := by
  rw [run, hs]
  dsimp only
  rw [he]

theorem run_cons_of_stop (hs : s.action.expansion? = some e) (he : b.expand? e.1 e.2 = none) :
    b.run (s :: steps) = b := by
  rw [run, hs]
  dsimp only
  rw [he]

theorem expansions_cons_of_none (hs : s.action.expansion? = none) :
    expansions (s :: steps) = expansions steps :=
  List.filterMap_cons_none hs

theorem expansions_cons_of_some (hs : s.action.expansion? = some e) :
    expansions (s :: steps) = e :: expansions steps :=
  List.filterMap_cons_some hs

end

/-- all expansions in the first part find a node, and behind it stands one that finds none -/
structure Stops (b : ArenaReplay) (r : Replay) (done rest : List TraceStep) : Prop where
  finds : ∀ before s after e, done = before ++ s :: after → s.action.expansion? = some e →
    some e.1 ∈ (b.run before).labels
  stops : ∀ s ∈ rest.head?, ∃ e, s.action.expansion? = some e ∧ some e.1 ∉ (b.run done).labels
  run_eq : b.run (done ++ rest) = b.run done
  applies : r.Applies (expansions done) (r.applyAll (expansions (done ++ rest)))

namespace Stops

variable {s : TraceStep} {e : String × List Symbol} {b' : ArenaReplay} {r' : Replay}
  {done rest : List TraceStep}

theorem skip (hs : s.action.expansion? = none) (h : Stops b r done rest) :
    Stops b r (s :: done) rest := by
  refine ⟨fun before t after e hdone ht => ?_, ?_, ?_, ?_⟩
  · cases before with
    | nil =>
      -- the step in front is no expansion
      obtain ⟨rfl, -⟩ := List.cons.inj hdone
      rw [hs] at ht
      cases ht
    | cons t' before =>
      obtain ⟨rfl, htail⟩ := List.cons.inj hdone
      rw [run_cons_of_none before hs]
      exact h.finds before t after e htail ht
  · rw [run_cons_of_none done hs]
    exact h.stops
  · rw [List.cons_append, run_cons_of_none _ hs, run_cons_of_none _ hs, h.run_eq]
  · rw [List.cons_append, expansions_cons_of_none _ hs, expansions_cons_of_none _ hs]
    exact h.applies

theorem expand (hs : s.action.expansion? = some e) (hn : some e.1 ∈ b.labels)
    (hexpand : b.expand? e.1 e.2 = some b') (hgrow : r.grow? e.1 e.2 = some r')
    (h : Stops b' r' done rest) : Stops b r (s :: done) rest := by
  refine ⟨fun before t after e' hdone ht => ?_, ?_, ?_, ?_⟩
  · cases before with
    | nil =>
      obtain ⟨rfl, -⟩ := List.cons.inj hdone
      obtain rfl := Option.some.inj (hs.symm.trans ht)
      exact hn
    | cons t' before =>
      obtain ⟨rfl, htail⟩ := List.cons.inj hdone
      rw [run_cons_of_expand? before hs hexpand]
      exact h.finds before t after e' htail ht
  · rw [run_cons_of_expand? done hs hexpand]
    exact h.stops
  · rw [List.cons_append, run_cons_of_expand? _ hs hexpand, run_cons_of_expand? _ hs hexpand,
      h.run_eq]
  · rw [List.cons_append, expansions_cons_of_some _ hs, expansions_cons_of_some _ hs,
      Replay.applyAll, hgrow]
    exact .step hgrow h.applies

theorem here (hs : s.action.expansion? = some e) (hn : some e.1 ∉ b.labels)
    (hexpand : b.expand? e.1 e.2 = none) (hgrow : r.grow? e.1 e.2 = none)
    (rest : List TraceStep) : Stops b r [] (s :: rest) := by
  refine ⟨fun before t after e' hdone => ?_, fun t ht => ?_, run_cons_of_stop rest hs hexpand, ?_⟩
  · simp at hdone
  · obtain rfl := Option.some.inj ht
    exact ⟨e, hs, hn⟩
  · rw [List.nil_append, expansions_cons_of_some _ hs, Replay.applyAll, hgrow]
    exact .refl r

end Stops

theorem Shows.exists_stops (h : Shows p b r) (steps : List TraceStep) :
    ∃ done rest p', steps = done ++ rest ∧ Stops b r done rest ∧
      Shows p' (b.run steps) (r.applyAll (expansions steps)) := by
  -- each step that expands goes on with another tree, so the induction is over all of them
  induction steps generalizing p b r with
  | nil =>
    refine ⟨[], [], p, rfl, ⟨fun before s after e hdone => ?_, nofun, rfl, .refl r⟩, h⟩
    simp at hdone
  | cons s steps ih =>
    cases hs : s.action.expansion? with
    | none =>
      obtain ⟨done, rest, p', rfl, hstops, hshows⟩ := ih h
      refine ⟨s :: done, rest, p', rfl, hstops.skip hs, ?_⟩
      rwa [run_cons_of_none _ hs, expansions_cons_of_none _ hs]
    | some e =>
      by_cases hn : some e.1 ∈ b.labels
      · obtain ⟨p₁, b₁, r₁, hexpand, hgrow, h₁⟩ := h.step hn e.2
        obtain ⟨done, rest, p', rfl, hstops, hshows⟩ := ih h₁
        refine ⟨s :: done, rest, p', rfl, hstops.expand hs hn hexpand hgrow, ?_⟩
        rwa [run_cons_of_expand? _ hs hexpand, expansions_cons_of_some _ hs, Replay.applyAll, hgrow]
      · obtain ⟨hexpand, hgrow⟩ := h.stop hn e.2
        refine ⟨[], s :: steps, p, rfl, .here hs hn hexpand hgrow steps, ?_⟩
        rwa [run_cons_of_stop _ hs hexpand, expansions_cons_of_some _ hs, Replay.applyAll, hgrow]

theorem Shows.toTree_eq (h : Shows p b r) : b.toTree = r.toTree := by
  rw [toTree, h.agrees.tree, h.derivation]
  rfl

/-! ## the replay of a trace -/

theorem toTree_ofTrace (steps : List TraceStep) :
    (ofTrace steps).toTree = SyntaxTree.ofTrace steps := by
  obtain ⟨_, _, _, _, _, h⟩ := (shows_start (SyntaxTree.rootLabel steps)).exists_stops steps
  exact h.toTree_eq

/-- the replay of `steps`, which comes to the end of `done` -/
structure Replays (steps done rest : List TraceStep) : Prop where
  split : steps = done ++ rest
  /-- after every step -/
  agrees : ∀ k, ((start (SyntaxTree.rootLabel steps)).run (steps.take k)).Agrees
    ((Replay.start (SyntaxTree.rootLabel steps)).applyAll (expansions (steps.take k)))
  stops : (start (SyntaxTree.rootLabel steps)).Stops
    (Replay.start (SyntaxTree.rootLabel steps)) done rest
  length : (ofTrace steps).derivation.length = (expansions done).length + 1
  /-- a line is the yield of the tree after the expansions of the lines before -/
  lines : ∀ k ≤ (expansions done).length, (ofTrace steps).derivation[k]? =
    some (toString (k + 1) ++ ". " ++ Symbol.sequenceText ((Replay.start
      (SyntaxTree.rootLabel steps)).applyAll ((expansions done).take k)).growth.yield)
  leaves : (ofTrace steps).toTree.leaves = Symbol.word (ofTrace steps).form
  nodeCount : (ofTrace steps).toTree.nodeCount = 1 + total (fun e => e.2.length) (expansions done)
  /-- nothing but the slots is lost without an arena -/
  toTree_eq : (ofTrace steps).toTree = SyntaxTree.ofTrace steps

/-- **Replaying any list of steps is consistent.**  The arena, the frontier and the form show one
tree after every step, up to the first expansion for which no node is open. -/
theorem exists_replays (steps : List TraceStep) : ∃ done rest, Replays steps done rest := by
  have hstart := shows_start (SyntaxTree.rootLabel steps)
  obtain ⟨done, rest, p, hsplit, hstops, hshows⟩ := hstart.exists_stops steps
  have happlies := hstops.applies
  rw [← hsplit] at happlies
  have hderivation : (ofTrace steps).derivation =
      numberedFrom 1 ((SyntaxTree.replay steps).forms.map Symbol.sequenceText) := hshows.derivation
  have htree := toTree_ofTrace steps
  refine ⟨done, rest, hsplit, fun k => ?_, hstops, ?_, fun k hk => ?_, ?_, ?_, htree⟩
  · obtain ⟨-, -, p', -, -, hk⟩ := hstart.exists_stops (steps.take k)
    exact hk.agrees
  · rw [hderivation, length_numberedFrom, List.length_map]
    exact happlies.length_forms.trans (Nat.add_comm _ _)
  · have hform := happlies.getElem?_forms rfl k hk
    rw [Nat.add_comm] at hform
    rw [hderivation, getElem?_numberedFrom, List.getElem?_map, Nat.add_comm 1 k]
    exact congrArg (Option.map _) (congrArg (Option.map _) hform)
  · have hform : (ofTrace steps).form = (SyntaxTree.replay steps).growth.yield :=
      hshows.form.trans hshows.yield.symm
    rw [htree, hform]
    exact Growth.leaves_toNode _ 0
  · rw [htree]
    exact happlies.count_toNode 0

/-- the node in the middle is no nonterminal, and the last expansion finds no node -/
example : (ofTrace [
      ⟨["S"], ["b"], .start⟩,
      ⟨["B", "B", "A"], ["b"], .expand "S" [.nonterminal "A", .terminal "B", .nonterminal "B"]⟩,
      ⟨["B", "A"], ["b"], .expand "B" []⟩,
      ⟨["B", "A"], ["b"], .expand "B" [.terminal "b"]⟩,
      ⟨[], ["b"], .expand "A" []⟩]).derivation = ["1. S", "2. A B B", "3. A B"] := by
  decide

end ArenaReplay

end SpanishSyntax
