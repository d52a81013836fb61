import Mathlib.Data.List.Chain
import SpanishSyntax.Proofs.Parse.Path
import SpanishSyntax.Proofs.Tree.Expansion

/-!
# Replaying a trace gives the derivation tree

The expansions of a trace are a leftmost derivation (`Parse.Machine.Path.leftmost`), so at each of
them the leftmost nonterminal of the form so far is the expanded one.  As long as the tree yields
the form (`Replay.exists_grow?`), the replay finds its leftmost pending node by label alone, and
the form rewritten beside the tree stays its yield.

* `Replay.Grows`                      a replay in which every expansion is applied;
* `Replay.grows_of_leftmost`          every leftmost derivation is replayed in this way;
* `ParseTable.replays_of_build`       what this gives for the trace of a parse.
-/

namespace SpanishSyntax

theorem rewriteLeftmost_at (p : Production) (read : List String) (right : List Symbol) :
    rewriteLeftmost p.head p.body (read.map .terminal ++ .nonterminal p.head :: right) =
      read.map .terminal ++ (p.body ++ right) := by
  have hread : .nonterminal p.head ∉ read.map Symbol.terminal := by simp
  rw [rewriteLeftmost_append_of_not_mem hread, rewriteLeftmost, if_pos rfl]

def Grammar.RewritesLeftmost (g : Grammar) (u v : List Symbol) : Prop :=
  ∃ p ∈ g.productions, p.RewritesLeftmost u v

namespace Replay

open Parse

variable {g : Grammar}

/-- the leftmost pending node is expanded by `p` and the leftmost nonterminal of the form with it -/
structure Advances (p : Production) (r r' : Replay) : Prop where
  growth : r.growth.ExpandsLeftmost p r'.growth
  form : p.RewritesLeftmost r.form r'.form
  earlier : r'.earlier = r.form :: r.earlier

theorem exists_grow? {r : Replay} (hr : r.growth.yield = r.form) {p : Production}
    {read : List String} {right : List Symbol}
    (hform : r.form = read.map .terminal ++ .nonterminal p.head :: right) :
    ∃ r', r.grow? p.head p.body = some r' ∧ r.Advances p r' ∧ r'.growth.yield = r'.form ∧
      r'.form = read.map .terminal ++ (p.body ++ right) := by
  have hyield := hr.trans hform
  have hmem : .nonterminal p.head ∈ r.growth.yield := by
    rw [hyield]
    exact List.mem_append_right _ List.mem_cons_self
  obtain ⟨growth, hexp⟩ := Growth.exists_expands p.head p.body r.growth hmem
  have hgrow : r.grow? p.head p.body =
      some ⟨growth, rewriteLeftmost p.head p.body r.form, r.form :: r.earlier⟩ := by
    rw [grow?, hexp.expand?_eq]
    rfl
  have hrewrite :
      rewriteLeftmost p.head p.body r.form = read.map .terminal ++ (p.body ++ right) := by
    rw [hform]
    exact rewriteLeftmost_at p read right
  exact ⟨_, hgrow, ⟨hexp.leftmost hyield, ⟨read, right, hform, hrewrite⟩, rfl⟩,
    yield_eq_of_grow? hgrow hr, hrewrite⟩

inductive Grows (g : Grammar) : Replay → List Production → Replay → Prop where
  | refl (r : Replay) : Grows g r [] r
  | step {r r' r'' : Replay} {p : Production} {ps : List Production} (hp : p ∈ g.productions)
      (hgrow : r.grow? p.head p.body = some r') (ha : r.Advances p r') (h : Grows g r' ps r'') :
      Grows g r (p :: ps) r''

theorem grows_of_leftmost {u v : List Symbol} {ps : List Production}
    (h : g.LeftmostDerivation u ps v) {r : Replay} (hr : r.growth.yield = r.form)
    (hu : r.form = u) : ∃ r', Grows g r ps r' ∧ r'.growth.yield = r'.form ∧ r'.form = v := by
  induction h generalizing r with
  | refl u => exact ⟨r, .refl r, hr, hu⟩
  | step hp _ _ ih =>
    obtain ⟨r', hgrow, ha, hr', hform⟩ := exists_grow? hr hu
    obtain ⟨r'', h, hyield⟩ := ih hr' hform
    exact ⟨r'', .step hp hgrow ha h, hyield⟩

namespace Grows

variable {r r' : Replay} {ps : List Production}

theorem applies (h : Grows g r ps r') : Applies r (ps.map shown) r' := by
  induction h with
  | refl => exact .refl _
  | step _ hgrow _ _ ih => exact .step hgrow ih

theorem applyAll_eq (h : Grows g r ps r') : r.applyAll (ps.map shown) = r' :=
  h.applies.applyAll_eq

theorem length_forms (h : Grows g r ps r') : r'.forms.length = r.forms.length + ps.length := by
  rw [h.applies.length_forms, List.length_map]

theorem split {before after : List Production} {p : Production}
    (h : Grows g r (before ++ p :: after) r') :
    p ∈ g.productions ∧ ∃ r₁ r₂, Grows g r before r₁ ∧ r₁.Advances p r₂ ∧
      Grows g r (before ++ [p]) r₂ := by
  induction before generalizing r with
  | nil =>
    cases h with
    | step hp hgrow ha _ => exact ⟨hp, r, _, .refl r, ha, .step hp hgrow ha (.refl _)⟩
  | cons q before ih =>
    cases h with
    | step hq hgrow ha h =>
      obtain ⟨hp, r₁, r₂, h₁, hadv, h₂⟩ := ih h
      exact ⟨hp, r₁, r₂, .step hq hgrow ha h₁, hadv, .step hq hgrow ha h₂⟩

theorem symbol_eq (h : Grows g r ps r') : r'.growth.symbol = r.growth.symbol := by
  induction h with
  | refl => rfl
  | step _ _ ha _ ih => exact ih.trans ha.growth.symbol_eq

theorem validFor (h : Grows g r ps r') (hr : r.growth.ValidFor g) : r'.growth.ValidFor g := by
  induction h with
  | refl => exact hr
  | step hp _ ha _ ih => exact ih (ha.growth.validFor hp hr)

theorem isChain_forms (h : Grows g r ps r') (hr : r.forms.IsChain g.RewritesLeftmost) :
    r'.forms.IsChain g.RewritesLeftmost := by
  induction h with
  | refl => exact hr
  | @step r r' r'' p ps hp _ ha _ ih =>
    refine ih ?_
    rw [forms, List.isChain_reverse] at hr ⊢
    rw [ha.earlier]
    exact .cons_cons ⟨p, hp, ha.form⟩ hr

end Grows

end Replay

namespace Parse

/-- the replay of the outcome for the tokens `w`, as a tree that grows with the derivation -/
structure Outcome.Replays (g : Grammar) (w : List String) (o : Outcome) : Prop where
  applied : SyntaxTree.replay o.steps = (Replay.start g.start).applyAll (expansions o.steps)
  /-- no expansion is left out: each takes the replay one step on -/
  advances : ∀ before e after, expansions o.steps = before ++ e :: after →
    ∃ p ∈ g.productions, e = (p.head, p.body) ∧
      ((Replay.start g.start).applyAll before).Advances p
        ((Replay.start g.start).applyAll (before ++ [e]))
  root : (SyntaxTree.ofTrace o.steps).root.label = g.start ∧
    (SyntaxTree.ofTrace o.steps).root.terminal = false
  valid : (SyntaxTree.replay o.steps).growth.ValidFor g
  /-- what was read, then the final stack from the top down -/
  yield : ∃ last rest, o.steps.getLast? = some last ∧
    last.stack = (rest.map Symbol.name).reverse ∧
    (SyntaxTree.replay o.steps).growth.yield = (w.take o.consumed).map .terminal ++ rest
  leaves : o.accepted = true → (SyntaxTree.ofTrace o.steps).leaves = w
  length : (SyntaxTree.ofTrace o.steps).derivation.length = (expansions o.steps).length + 1
  derivation : (SyntaxTree.ofTrace o.steps).derivation =
    numberedFrom 1 ((SyntaxTree.replay o.steps).forms.map Symbol.sequenceText)
  /-- the forms are the lines of the derivation, without number and layout -/
  rewrites : (SyntaxTree.replay o.steps).forms.IsChain g.RewritesLeftmost
  form : (SyntaxTree.replay o.steps).form = (SyntaxTree.replay o.steps).growth.yield

end Parse

namespace ParseTable

open Parse Machine

variable {g : Grammar} {t : ParseTable}

theorem Course.replay_eq {w : List String} {steps : List TraceStep} {m : Machine}
    (h : t.Course g w steps m) : SyntaxTree.replay (t.parse w).steps =
      (Replay.start g.start).applyAll (expansions (t.parse w).steps) := by
  have hroot : SyntaxTree.rootLabel (t.parse w).steps = g.start := by
    rw [h.parse]
    rfl
  rw [SyntaxTree.replay, hroot]

theorem Course.grows (hb : t.Built g) {w : List String} {steps : List TraceStep} {m : Machine}
    (h : t.Course g w steps m) :
    ∃ ps, expansions (t.parse w).steps = ps.map shown ∧
      Replay.Grows g (Replay.start g.start) ps (SyntaxTree.replay (t.parse w).steps) ∧
      (SyntaxTree.replay (t.parse w).steps).form =
        (SyntaxTree.replay (t.parse w).steps).growth.yield ∧
      (SyntaxTree.replay (t.parse w).steps).growth.yield =
        (w.take (t.parse w).consumed).map .terminal ++ m.form := by
  obtain ⟨ps, hps, hleft⟩ := h.path.leftmost hb
  obtain ⟨r, hgrows, hyield, hform⟩ := Replay.grows_of_leftmost hleft (r := Replay.start g.start)
    rfl rfl
  have hr : SyntaxTree.replay (t.parse w).steps = r := by
    rw [h.replay_eq, h.expansions_steps, hps, hgrows.applyAll_eq]
  rw [hr, h.take_consumed]
  exact ⟨ps, h.expansions_steps.trans hps, hgrows, hyield.symm, hyield.trans hform⟩

/-- **Replaying the trace of a parse gives its derivation tree**, to the end for an accepted
sequence and otherwise as far as the parser came. -/
theorem replays_of_build {d : Declaration} {policy : ConflictPolicy} (hg : d.build = .ok g)
    (ht : build g policy = .ok t) (w : List String) : (t.parse w).Replays g w := by
  have hb := built_of_build hg ht
  obtain ⟨steps, m, h⟩ := exists_course hb w
  obtain ⟨ps, hps, hgrows, hform, hyield⟩ := h.grows hb
  exact {
    applied := h.replay_eq
    advances := fun before e after hsplit => by
      rw [hps] at hsplit
      obtain ⟨qs, rest, rfl, rfl, hrest⟩ := List.map_eq_append_iff.mp hsplit
      obtain ⟨p, after, rfl, rfl, rfl⟩ := List.map_eq_cons_iff.mp hrest
      obtain ⟨hp, r₁, r₂, h₁, hadv, h₂⟩ := hgrows.split
      have happly := h₂.applyAll_eq
      rw [List.map_append] at happly
      refine ⟨p, hp, rfl, ?_⟩
      rw [h₁.applyAll_eq]
      exact happly ▸ hadv
    root := by
      have hroot := Growth.root_toNode (SyntaxTree.replay (t.parse w).steps).growth 0
      rw [hgrows.symbol_eq] at hroot
      exact hroot
    valid := hgrows.validFor (.pending g.start)
    yield := ⟨_, m.form, h.getLast?_steps, by rw [entry_eq], hyield⟩
    leaves := fun haccept => by
      obtain ⟨hempty, hread⟩ := h.of_accepted haccept
      have hleaves := Growth.leaves_toNode (SyntaxTree.replay (t.parse w).steps).growth 0
      rw [hyield, hempty, List.append_nil, Symbol.word_terminals, h.take_consumed, hread] at hleaves
      exact hleaves
    length := by
      show (numberedFrom 1 ((SyntaxTree.replay (t.parse w).steps).forms.map _)).length = _
      rw [length_numberedFrom, List.length_map, hgrows.length_forms, hps, List.length_map]
      exact Nat.add_comm 1 ps.length
    derivation := rfl
    rewrites := hgrows.isChain_forms (.singleton _)
    form := hform }

/-- two nodes with one label are pending at a time, and both vanish -/
theorem replay_vanishing :
    vanishing.build = .ok vanishingGrammar ∧
      build vanishingGrammar .firstListed = .ok vanishingTable ∧
      (vanishingTable.parse ["a"]).Replays vanishingGrammar ["a"] ∧
      (SyntaxTree.ofTrace (vanishingTable.parse ["a"]).steps).leaves = ["a"] ∧
      (SyntaxTree.ofTrace (vanishingTable.parse ["a"]).steps).derivation =
        ["1. S", "2. A A a", "3. A a", "4. a"] := by
  have h := replays_of_build (d := vanishing) (g := vanishingGrammar) rfl build_vanishingGrammar
    ["a"]
  have hparse := parse_of_runWithin (t := vanishingTable) (n := 5) (w := ["a"])
    (o := ⟨[⟨["a", "A", "A"], ["a"],
          .expand "S" [.nonterminal "A", .nonterminal "A", .terminal "a"]⟩,
        ⟨["a", "A"], ["a"], .expand "A" []⟩, ⟨["a"], ["a"], .expand "A" []⟩,
        ⟨[], [], .matched "a"⟩, ⟨[], [], .accept⟩], none, 1⟩) (by decide)
  have haccept : (vanishingTable.parse ["a"]).accepted = true := by
    rw [hparse]
    rfl
  refine ⟨rfl, build_vanishingGrammar, h, h.leaves haccept, ?_⟩
  rw [hparse]
  decide

end ParseTable

end SpanishSyntax
