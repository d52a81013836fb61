import Mathlib.Data.List.Nodup
import SpanishSyntax.Proofs.Grammar.LeftRecursionExact

/-!
# The cells of a prediction table

`Grammar.Selects g n la i p` is the rule that fills a table: the production `p`, the `i`-th of the
grammar, has the head `n` and is selected by the lookahead `la`.  `Grammar.ListsSelected` says that
indices and productions show what is selected in the order of the grammar, each place once.

* `ParseTable.listsSelected_cell`    a cell shows the selected productions;
* `Grammar.ListsSelected.head?_eq_some_iff`   so the first of them has the least index;
* `ParseTable.mem_conflicts`, `ParseTable.mem_entries`   the two listings of the table show the
                                     cells with several candidates, and with any;
* `ParseTable.isLL1_iff`             no cell has several exactly if the first listing is empty.
-/

namespace SpanishSyntax

namespace Grammar

variable {g : Grammar}

/-- the lookahead begins the body, or stands behind the head where the body can vanish -/
def Selects (g : Grammar) (n : String) (la : Lookahead) (i : Nat) (p : Production) : Prop :=
  g.productions[i]? = some p ∧ p.head = n ∧
    ((∃ a ∈ ((GrammarSets.ofGrammar g).firstOf p.body).terminals, .terminal a = la) ∨
      ((GrammarSets.ofGrammar g).firstOf p.body).nullable = true ∧
        la ∈ (GrammarSets.ofGrammar g).follow.get n)

/-- the places that `la` selects for `n`, in the order of the grammar, and what stands there -/
structure ListsSelected (g : Grammar) (n : String) (la : Lookahead) (places : List Nat)
    (ps : List Production) : Prop where
  ascending : places.Pairwise (· < ·)
  mem_iff : ∀ i, i ∈ places ↔ ∃ p, g.Selects n la i p
  productions : ps.map some = places.map (g.productions[·]?)

/-- the first of the listed productions is the selected one with the least index -/
theorem ListsSelected.head?_eq_some_iff {n : String} {la : Lookahead} {places : List Nat}
    {ps : List Production} (h : g.ListsSelected n la places ps) {p : Production} :
    ps.head? = some p ↔ ∃ i, g.Selects n la i p ∧ ∀ j q, g.Selects n la j q → i ≤ j := by
  obtain ⟨hlt, hplaces, hps⟩ := h
  cases places with
  | nil =>
    obtain rfl : ps = [] := List.map_eq_nil_iff.mp hps
    refine ⟨fun hp => (nomatch hp), ?_⟩
    rintro ⟨i, hi, _⟩
    exact absurd ((hplaces i).mpr ⟨p, hi⟩) List.not_mem_nil
  | cons i places =>
    obtain ⟨q, ps, rfl, hq, _⟩ := List.map_eq_cons_iff.mp hps
    obtain ⟨q', hi⟩ := (hplaces i).mp List.mem_cons_self
    obtain rfl : q = q' := Option.some.inj (hq.trans hi.1)
    have hleast : ∀ j r, g.Selects n la j r → i ≤ j := by
      intro j r hj
      rcases List.mem_cons.mp ((hplaces j).mpr ⟨r, hj⟩) with rfl | hmem
      · exact Nat.le_refl j
      · exact Nat.le_of_lt ((List.pairwise_cons.mp hlt).1 j hmem)
    constructor
    · intro hp
      obtain rfl : q = p := Option.some.inj hp
      exact ⟨i, hi, hleast⟩
    · rintro ⟨j, hj, hbelow⟩
      obtain rfl : j = i := Nat.le_antisymm (hbelow i q hi) (hleast j p hj)
      exact hi.1.symm.trans hj.1

end Grammar

namespace ParseTable

variable {g : Grammar}

/-! ## cells -/

theorem index_selections (g : Grammar) (s : GrammarSets) (policy : ConflictPolicy) :
    (assemble g s policy).selections.map (·.index) = List.range' 0 g.productions.length := by
  rw [assemble, List.map_map]
  exact List.zipIdx_map_snd 0 g.productions

theorem mem_selections {s : GrammarSets} {policy : ConflictPolicy} {sel : Selection} :
    sel ∈ (assemble g s policy).selections ↔
      g.productions[sel.index]? = some sel.production ∧
        sel.lookaheads = s.selectors sel.production := by
  constructor
  · intro h
    obtain ⟨⟨p, i⟩, hp, rfl⟩ := List.mem_map.mp h
    exact ⟨List.mk_mem_zipIdx_iff_getElem?.mp hp, rfl⟩
  · rintro ⟨hp, hla⟩
    refine List.mem_map.mpr ⟨(sel.production, sel.index),
      List.mk_mem_zipIdx_iff_getElem?.mpr hp, ?_⟩
    rw [← hla]

theorem mem_selectors_iff {p : Production} {la : Lookahead} :
    la ∈ (GrammarSets.ofGrammar g).selectors p ↔
      (∃ a ∈ ((GrammarSets.ofGrammar g).firstOf p.body).terminals, .terminal a = la) ∨
        ((GrammarSets.ofGrammar g).firstOf p.body).nullable = true ∧
          la ∈ (GrammarSets.ofGrammar g).follow.get p.head :=
  GrammarSets.mem_selectors.trans FollowTable.mem_after

theorem listsSelected_cell (g : Grammar) (policy : ConflictPolicy) (n : String) (la : Lookahead) :
    g.ListsSelected n la (((assemble g (.ofGrammar g) policy).cell n la).map (·.index))
      ((assemble g (.ofGrammar g) policy).candidates n la) := by
  let t := assemble g (.ofGrammar g) policy
  refine ⟨?_, fun i => ?_, ?_⟩
  · have hsub : ((t.cell n la).map (·.index)).Sublist (t.selections.map (·.index)) :=
      List.filter_sublist.map _
    rw [index_selections] at hsub
    exact (List.pairwise_lt_range' 1).sublist hsub
  · rw [List.mem_map]
    constructor
    · rintro ⟨sel, hsel, rfl⟩
      obtain ⟨hmem, hhead, hla⟩ := mem_cell.mp hsel
      obtain ⟨hp, hlookaheads⟩ := mem_selections.mp hmem
      rw [hlookaheads, mem_selectors_iff, hhead] at hla
      exact ⟨sel.production, hp, hhead, hla⟩
    · rintro ⟨p, hp, hhead, hla⟩
      rw [← hhead, ← mem_selectors_iff] at hla
      exact ⟨⟨i, p, _⟩, mem_cell.mpr ⟨mem_selections.mpr ⟨hp, rfl⟩, hhead, hla⟩, rfl⟩
  · show ((t.cell n la).map (·.production)).map some = _
    rw [List.map_map, List.map_map]
    refine List.map_congr_left fun sel hsel => ?_
    exact (mem_selections.mp (mem_cell.mp hsel).1).1.symm

/-! ## listings -/

variable {t : ParseTable}

theorem mem_row_iff {n : String} {la : Lookahead} : la ∈ t.row n ↔ t.candidates n la ≠ [] := by
  have hcell : (∃ s, s ∈ t.cell n la) ↔ t.candidates n la ≠ [] := by
    rw [← List.length_pos_iff_exists_mem, ← List.length_pos_iff, candidates, List.length_map]
  rw [mem_row, ← hcell]
  exact exists_congr fun s => mem_cell.symm

theorem nodup_row (t : ParseTable) (n : String) : (t.row n).Nodup :=
  Ascending.nodup_of_ascends (t.ascends_row n)

/-- a table is listed row by row, so a cell comes once if its row does -/
theorem nodup_cells {rows : List String} (h : rows.Nodup) {columns : String → List Lookahead}
    (hcolumns : ∀ n, (columns n).Nodup) :
    (rows.flatMap fun n => (columns n).map fun la => (n, la)).Nodup := by
  rw [List.nodup_flatMap]
  refine ⟨fun n _ => (hcolumns n).map fun _ _ e => (Prod.mk.inj e).2, h.imp fun {m n} hne => ?_⟩
  intro c hm hn
  obtain ⟨_, _, rfl⟩ := List.mem_map.mp hm
  obtain ⟨_, _, e⟩ := List.mem_map.mp hn
  exact hne (Prod.mk.inj e).1.symm

theorem mem_entries (hg : t.grammar.Valid) (ht : ∀ s ∈ t.selections,
    s.production ∈ t.grammar.productions) {n : String} {la : Lookahead} {ps : List Production} :
    (n, la, ps) ∈ t.entries ↔ ps = t.candidates n la ∧ ps ≠ [] := by
  unfold entries
  rw [List.mem_flatMap]
  constructor
  · rintro ⟨m, _, hm⟩
    obtain ⟨_, hrow, e⟩ := List.mem_map.mp hm
    cases e
    exact ⟨rfl, mem_row_iff.mp hrow⟩
  · rintro ⟨rfl, hne⟩
    have hrow := mem_row_iff.mpr hne
    obtain ⟨s, hs, rfl, _⟩ := mem_row.mp hrow
    exact ⟨_, hg.head_mem _ (ht s hs), List.mem_map.mpr ⟨la, hrow, rfl⟩⟩

theorem nodup_entries (h : t.grammar.nonterminals.Nodup) :
    (t.entries.map fun e => (e.1, e.2.1)).Nodup := by
  have hcells : (t.entries.map fun e => (e.1, e.2.1)) =
      t.grammar.nonterminals.flatMap fun n => (t.row n).map fun la => (n, la) := by
    rw [entries, List.map_flatMap]
    refine List.flatMap_congr fun n _ => ?_
    rw [List.map_map]
    rfl
  rw [hcells]
  exact nodup_cells h t.nodup_row

theorem mem_conflicts (hg : t.grammar.Valid) (ht : ∀ s ∈ t.selections,
    s.production ∈ t.grammar.productions) {c : Conflict} :
    c ∈ t.conflicts ↔
      c.productions = t.candidates c.nonterminal c.lookahead ∧ 2 ≤ c.productions.length := by
  unfold conflicts
  rw [List.mem_flatMap]
  constructor
  · rintro ⟨n, _, hn⟩
    obtain ⟨la, _, hc⟩ := List.mem_filterMap.mp hn
    split at hc
    · rename_i hlength
      cases hc
      exact ⟨rfl, hlength⟩
    · cases hc
  · obtain ⟨n, la, ps⟩ := c
    dsimp only
    rintro ⟨rfl, hlength⟩
    have hne : t.candidates n la ≠ [] := List.length_pos_iff.mp (Nat.lt_of_succ_lt hlength)
    have hrow := mem_row_iff.mpr hne
    obtain ⟨s, hs, rfl, _⟩ := mem_row.mp hrow
    refine ⟨_, Ascending.mem_ofList.mpr (hg.head_mem _ (ht s hs)),
      List.mem_filterMap.mpr ⟨la, hrow, ?_⟩⟩
    exact if_pos hlength

theorem nodup_conflicts (t : ParseTable) :
    (t.conflicts.map fun c => (c.nonterminal, c.lookahead)).Nodup := by
  have hcells : (t.conflicts.map fun c => (c.nonterminal, c.lookahead)) =
      (Ascending.ofList t.grammar.nonterminals).flatMap fun n =>
        ((t.row n).filter fun la => 1 < (t.candidates n la).length).map fun la => (n, la) := by
    rw [conflicts, List.map_flatMap]
    refine List.flatMap_congr fun n _ => ?_
    rw [List.map_filterMap, ← List.filterMap_eq_map, ← List.filterMap_eq_filter,
      List.filterMap_filterMap]
    refine List.filterMap_congr fun la _ => ?_
    split <;> simp [Option.guard, *]
  rw [hcells]
  exact nodup_cells (Ascending.nodup_of_ascends (Ascending.ascends_ofList _)) fun n =>
    (t.nodup_row n).filter _

theorem isLL1_iff (hg : t.grammar.Valid) (ht : ∀ s ∈ t.selections,
    s.production ∈ t.grammar.productions) : t.isLL1 = true ↔ t.conflicts = [] := by
  unfold isLL1
  rw [List.all_eq_true, List.eq_nil_iff_forall_not_mem]
  constructor
  · intro h c hc
    obtain ⟨hps, hlength⟩ := (mem_conflicts hg ht).mp hc
    have hne : c.productions ≠ [] := List.length_pos_iff.mp (Nat.lt_of_succ_lt hlength)
    have hle := of_decide_eq_true (h _ ((mem_entries hg ht).mpr ⟨hps, hne⟩))
    exact absurd hlength (Nat.not_le.mpr (Nat.lt_succ_of_le hle))
  · rintro h ⟨n, la, ps⟩ he
    obtain ⟨hps, _⟩ := (mem_entries hg ht).mp he
    refine decide_eq_true (Nat.not_lt.mp fun hlength => ?_)
    exact h ⟨n, la, ps⟩ ((mem_conflicts hg ht).mpr ⟨hps, hlength⟩)

end ParseTable

end SpanishSyntax
