import Mathlib.Data.List.Induction
import SpanishSyntax.Grammar.FilledTable
import SpanishSyntax.Proofs.Entries
import SpanishSyntax.Proofs.Grammar.Cells

/-!
# The filled table is the table

`FilledTable.Filled s ps cells` says what the map holds when the productions `ps` have been gone
through: a row for each head, in it a cell for each lookahead that a production with this head
visits, and in the cell the indices of these productions in the order of `ps`.  One more production
keeps this (`Filled.addProduction`): it may visit a cell twice, through FIRST and through FOLLOW,
and its index is new to the cell the first time only.

* `FilledTable.filled_fill`      what the whole map holds;
* `FilledTable.cell_eq`          its cells are those that `ParseTable` computes;
* `FilledTable.agrees_fill`      and so are all the views of the table;
* `FilledTable.build_eq`         both ways of building refuse the same grammars.
-/

namespace SpanishSyntax

open Entries (Ordered)

theorem GrammarSets.mem_visits {s : GrammarSets} {p : Production} {la : Lookahead} :
    la ∈ s.visits p ↔ la ∈ s.selectors p := by
  unfold visits selectors
  dsimp only
  rw [Ascending.mem_union]
  split
  · rw [FollowTable.get]
    cases s.follow.get? p.head <;> simp
  · simp

namespace FilledTable

variable {g : Grammar} {s : GrammarSets} {policy : ConflictPolicy}

/-! ## one cell, one row -/

def cellOf (row : TableRow) (la : Lookahead) : List Nat := (row.get? la).getD []

def rowOf (cells : Entries String TableRow) (n : String) : TableRow := (cells.get? n).getD []

theorem cell_eq_cellOf (f : FilledTable) (n : String) (la : Lookahead) :
    f.cell n la = cellOf (rowOf f.cells n) la := by
  unfold cell cellOf rowOf
  cases f.cells.get? n <;> rfl

/-- a second visit adds nothing -/
theorem addIndex_addIndex (i : Nat) (cell : List Nat) :
    addIndex i (addIndex i cell) = addIndex i cell := by
  have hmem : i ∈ addIndex i cell := by
    unfold addIndex
    split
    · assumption
    · exact List.mem_append_right _ List.mem_cons_self
  rw [addIndex.eq_1 i (addIndex i cell), if_pos hmem]

theorem fillRow_cons (i : Nat) (la : Lookahead) (las : List Lookahead) (row : TableRow) :
    fillRow i (la :: las) row =
      fillRow i las (row.put la fun cell => addIndex i (cell.getD [])) := rfl

theorem keys_fillRow (i : Nat) (las : List Lookahead) (row : TableRow) :
    (fillRow i las row).keys = Ascending.union row.keys las := by
  induction las generalizing row with
  | nil => rfl
  | cons la las ih =>
    rw [fillRow_cons, ih, Entries.keys_put]
    rfl

theorem ordered_fillRow (i : Nat) (las : List Lookahead) {row : TableRow} (h : Ordered row) :
    Ordered (fillRow i las row) := by
  rw [Ordered, keys_fillRow]
  exact Ascending.ascends_union h

theorem cellOf_fillRow (i : Nat) (las : List Lookahead) {row : TableRow} (h : Ordered row)
    (la : Lookahead) :
    cellOf (fillRow i las row) la =
      if la ∈ las then addIndex i (cellOf row la) else cellOf row la := by
  induction las generalizing row with
  | nil => exact (if_neg List.not_mem_nil).symm
  | cons l las ih =>
    rw [fillRow_cons, ih (h.put l _)]
    have hput : cellOf (row.put l fun cell => addIndex i (cell.getD [])) la =
        if la = l then addIndex i (cellOf row la) else cellOf row la := by
      unfold cellOf
      rw [h.get?_put]
      split
      · rename_i hl
        rw [hl, Option.getD_some]
      · rfl
    rw [hput]
    by_cases hl : la = l
    · rw [if_pos hl, if_pos (List.mem_cons.mpr (.inl hl)), addIndex_addIndex, ite_self]
    · have hmem : la ∈ l :: las ↔ la ∈ las := List.mem_cons.trans (or_iff_right hl)
      simp only [if_neg hl, hmem]

/-! ## the whole map -/

/-- what the map holds when the productions `ps` have been gone through -/
structure Filled (s : GrammarSets) (ps : List (Production × Nat))
    (cells : Entries String TableRow) : Prop where
  ordered : Ordered cells
  ordered_row : ∀ n, Ordered (rowOf cells n)
  mem_keys : ∀ n, n ∈ cells.keys ↔ ∃ p ∈ ps, p.1.head = n
  mem_columns : ∀ n la, la ∈ (rowOf cells n).keys ↔ ∃ p ∈ ps, p.1.head = n ∧ la ∈ s.visits p.1
  cell : ∀ n la, cellOf (rowOf cells n) la =
    (ps.filter fun p => p.1.head = n ∧ la ∈ s.visits p.1).map (·.2)

theorem filled_nil (s : GrammarSets) : Filled s [] [] where
  ordered := Entries.ordered_nil
  ordered_row _ := Entries.ordered_nil
  mem_keys n := by simp [Entries.keys]
  mem_columns n la := by simp [rowOf, Entries.keys, Entries.get?_nil]
  cell n la := rfl

theorem rowOf_addProduction {cells : Entries String TableRow} (h : Ordered cells)
    (p : Production × Nat) (n : String) :
    rowOf (addProduction s cells p) n =
      if n = p.1.head then fillRow p.2 (s.visits p.1) (rowOf cells n) else rowOf cells n := by
  unfold addProduction rowOf
  rw [h.get?_put]
  split
  · rename_i hn
    rw [hn, Option.getD_some]
  · rfl

/-- one more production, with an index of its own -/
theorem Filled.addProduction {ps : List (Production × Nat)} {cells : Entries String TableRow}
    (h : Filled s ps cells) {p : Production × Nat} (hnew : p.2 ∉ ps.map (·.2)) :
    Filled s (ps ++ [p]) (addProduction s cells p) where
  ordered := h.ordered.put _ _
  ordered_row n := by
    rw [rowOf_addProduction h.ordered]
    split
    · exact ordered_fillRow _ _ (h.ordered_row n)
    · exact h.ordered_row n
  mem_keys n := by
    rw [FilledTable.addProduction, Entries.keys_put, Ascending.mem_insert, h.mem_keys]
    simp [or_comm, eq_comm]
  mem_columns n la := by
    rw [rowOf_addProduction h.ordered]
    split
    · rename_i hn
      rw [keys_fillRow, Ascending.mem_union, h.mem_columns]
      simp [hn, or_and_right, exists_or]
    · rename_i hn
      rw [h.mem_columns]
      simp [Ne.symm hn, or_and_right, exists_or]
  cell n la := by
    rw [List.filter_append, List.map_append, ← h.cell n la, rowOf_addProduction h.ordered]
    by_cases hn : n = p.1.head
    · rw [if_pos hn, cellOf_fillRow _ _ (h.ordered_row n)]
      by_cases hla : la ∈ s.visits p.1
      · have hold : p.2 ∉ cellOf (rowOf cells n) la := by
          rw [h.cell]
          exact fun hmem => hnew ((List.filter_sublist.map _).subset hmem)
        rw [if_pos hla, addIndex, if_neg hold]
        simp [hn, hla]
      · rw [if_neg hla]
        simp [hla]
    · rw [if_neg hn]
      simp [Ne.symm hn]

theorem filled_fill (g : Grammar) (s : GrammarSets) :
    Filled s g.productions.zipIdx (fill g s) := by
  unfold fill
  induction g.productions using List.reverseRecOn with
  | nil => exact filled_nil s
  | append_singleton ps p ih =>
    rw [List.zipIdx_append, List.foldl_append]
    refine ih.addProduction fun hmem => ?_
    rw [List.zipIdx_map_snd, List.mem_range'_1] at hmem
    omega

theorem mem_zipIdx_productions {p : Production × Nat} (h : p ∈ g.productions.zipIdx) :
    g.productions[p.2]? = some p.1 :=
  List.mk_mem_zipIdx_iff_getElem?.mp h

/-! ## the views -/

def ofTable (t : ParseTable) : FilledTable :=
  ⟨t.grammar, t.sets, t.policy, fill t.grammar t.sets⟩

theorem entries_eq_rowOf (f : FilledTable) :
    f.entries = f.grammar.nonterminals.flatMap fun n =>
      (rowOf f.cells n).map fun e => (n, e.1, f.productionsAt e.2) := by
  unfold entries rowOf
  refine List.flatMap_congr fun n _ => ?_
  cases f.cells.get? n <;> rfl

theorem conflicts_eq_rowOf {f : FilledTable} (h : Ordered f.cells) :
    f.conflicts = f.cells.keys.flatMap fun n =>
      ((rowOf f.cells n).filter fun e => 1 < e.2.length).map fun e =>
        ⟨n, e.1, f.productionsAt e.2⟩ := by
  unfold conflicts
  conv_lhs => rw [h.eq_map_keys []]
  rw [List.flatMap_map]
  rfl

/-- every view shows the same -/
structure Agrees (f : FilledTable) (t : ParseTable) : Prop where
  cell : ∀ n la, f.cell n la = (t.cell n la).map (·.index)
  candidates : ∀ n la, f.candidates n la = t.candidates n la
  predict : ∀ n la, f.predict n la = t.predict n la
  entries : f.entries = t.entries
  conflicts : f.conflicts = t.conflicts
  isLL1 : f.isLL1 = t.isLL1

section
variable (g s policy)

theorem cell_eq (n : String) (la : Lookahead) :
    (ofTable (.assemble g s policy)).cell n la =
      ((ParseTable.assemble g s policy).cell n la).map (·.index) := by
  rw [cell_eq_cellOf]
  refine ((filled_fill g s).cell n la).trans ?_
  rw [ParseTable.cell, ParseTable.assemble, List.filter_map, List.map_map]
  refine congrArg (List.map _) (List.filter_congr fun p _ => ?_)
  simp only [Function.comp_apply, GrammarSets.mem_visits]

theorem candidates_eq (n : String) (la : Lookahead) :
    (ofTable (.assemble g s policy)).candidates n la =
      (ParseTable.assemble g s policy).candidates n la := by
  rw [candidates, cell_eq, productionsAt, List.filterMap_map, ParseTable.candidates,
    ← List.filterMap_eq_map]
  refine List.filterMap_congr fun sel hsel => ?_
  obtain ⟨p, hp, rfl⟩ := List.mem_map.mp (ParseTable.mem_cell.mp hsel).1
  exact mem_zipIdx_productions hp

theorem length_candidates (n : String) (la : Lookahead) :
    ((ofTable (.assemble g s policy)).candidates n la).length =
      ((ofTable (.assemble g s policy)).cell n la).length := by
  rw [candidates_eq, cell_eq, ParseTable.candidates, List.length_map, List.length_map]

theorem predict_eq (n : String) (la : Lookahead) :
    (ofTable (.assemble g s policy)).predict n la =
      (ParseTable.assemble g s policy).predict n la := by
  rw [ParseTable.predict, ← candidates_eq, candidates, productionsAt, predict]
  have hvalid : ∀ i ∈ (ofTable (.assemble g s policy)).cell n la,
      g.productions[i]? ≠ none := by
    rw [cell_eq]
    intro i hi
    obtain ⟨sel, hsel, rfl⟩ := List.mem_map.mp hi
    obtain ⟨p, hp, rfl⟩ := List.mem_map.mp (ParseTable.mem_cell.mp hsel).1
    rw [mem_zipIdx_productions hp]
    exact Option.some_ne_none _
  cases hcell : (ofTable (.assemble g s policy)).cell n la with
  | nil => rfl
  | cons i cell =>
    obtain ⟨p, hp⟩ := Option.ne_none_iff_exists'.mp
      (hvalid i (hcell ▸ List.mem_cons_self))
    have hp : (ofTable (.assemble g s policy)).grammar.productions[i]? = some p := hp
    rw [List.head?_cons, Option.bind_some, List.filterMap_cons, hp, List.head?_cons]

/-- the columns of a row are its filled cells -/
theorem keys_rowOf (n : String) :
    (rowOf (fill g s) n).keys = (ParseTable.assemble g s policy).row n := by
  have h := filled_fill g s
  refine Ascending.eq_of_mem_iff (h.ordered_row n) (ParseTable.ascends_row _ n) fun la => ?_
  rw [h.mem_columns, ParseTable.mem_row, ParseTable.assemble]
  simp [GrammarSets.mem_visits]

theorem rowOf_eq (n : String) :
    rowOf (fill g s) n = ((ParseTable.assemble g s policy).row n).map fun la =>
      (la, (ofTable (.assemble g s policy)).cell n la) := by
  rw [((filled_fill g s).ordered_row n).eq_map_keys [], keys_rowOf g s policy]
  refine List.map_congr_left fun la _ => ?_
  rw [cell_eq_cellOf]
  rfl

theorem entries_eq :
    (ofTable (.assemble g s policy)).entries = (ParseTable.assemble g s policy).entries := by
  rw [entries_eq_rowOf, ParseTable.entries]
  refine List.flatMap_congr fun n _ => ?_
  have hrow := rowOf_eq g s policy n
  show (rowOf (fill g s) n).map _ = _
  rw [hrow, List.map_map]
  refine List.map_congr_left fun la _ => ?_
  rw [← candidates_eq]
  rfl

/-- the conflicts of one row -/
theorem conflicts_rowOf (n : String) :
    ((rowOf (fill g s) n).filter fun e => 1 < e.2.length).map (fun e =>
        (⟨n, e.1, (ofTable (.assemble g s policy)).productionsAt e.2⟩ : Conflict)) =
      ((ParseTable.assemble g s policy).row n).filterMap fun la =>
        if 1 < ((ParseTable.assemble g s policy).candidates n la).length then
          some ⟨n, la, (ParseTable.assemble g s policy).candidates n la⟩ else none := by
  rw [rowOf_eq g s policy, List.filter_map, List.map_map, ← List.filterMap_eq_map,
    ← List.filterMap_eq_filter, List.filterMap_filterMap]
  refine List.filterMap_congr fun la _ => ?_
  have hcandidates := candidates_eq g s policy n la
  have hlength := length_candidates g s policy n la
  rw [← hcandidates, hlength]
  by_cases h : 1 < ((ofTable (.assemble g s policy)).cell n la).length
  · simp [Option.guard, h, candidates]
  · simp [Option.guard, h]

/-- nonterminals without a production have no row, and no conflicts -/
theorem conflicts_eq (hg : g.Valid) :
    (ofTable (.assemble g s policy)).conflicts = (ParseTable.assemble g s policy).conflicts := by
  have h := filled_fill g s
  have hsub : (fill g s).keys ⊆ Ascending.ofList g.nonterminals := by
    intro n hn
    obtain ⟨p, hp, rfl⟩ := (h.mem_keys n).mp hn
    have hmem := List.mem_of_getElem? (mem_zipIdx_productions hp)
    exact Ascending.mem_ofList.mpr (hg.head_mem _ hmem)
  rw [conflicts_eq_rowOf h.ordered, ParseTable.conflicts]
  refine (List.flatMap_congr fun n _ => conflicts_rowOf g s policy n).trans ?_
  refine Ascending.flatMap_eq_of_subset h.ordered (Ascending.ascends_ofList _) hsub fun n hn => ?_
  rw [← keys_rowOf, rowOf, Entries.get?_eq_none_iff.mpr hn]
  rfl

end

theorem conflicts_eq_nil_iff (f : FilledTable) : f.conflicts = [] ↔ f.isLL1 = true := by
  simp [conflicts, isLL1]

theorem agrees_ofTable (hg : g.Valid) (policy : ConflictPolicy) :
    (ofTable (.assemble g s policy)).Agrees (.assemble g s policy) := by
  have hconflicts := conflicts_eq g s policy hg
  have hproductions : ∀ sel ∈ (ParseTable.assemble g s policy).selections,
      sel.production ∈ g.productions := fun sel hsel =>
    List.mem_of_getElem? (ParseTable.mem_selections.mp hsel).1
  refine ⟨cell_eq g s policy, candidates_eq g s policy, predict_eq g s policy,
    entries_eq g s policy, hconflicts, ?_⟩
  rw [Bool.eq_iff_iff, ← conflicts_eq_nil_iff, hconflicts]
  exact (ParseTable.isLL1_iff hg hproductions).symm

/-! ## building -/

theorem assemble_eq (hg : g.Valid) (s : GrammarSets) (policy : ConflictPolicy) :
    assemble g s policy =
      if policy = .reject ∧ (ParseTable.assemble g s policy).conflicts ≠ [] then
        .error (.conflicts (ParseTable.assemble g s policy).conflicts)
      else .ok (ofTable (.assemble g s policy)) := by
  rw [← conflicts_eq g s policy hg]
  rfl

/-- the same grammars are refused, with the same words -/
theorem build_eq (hg : g.Valid) (policy : ConflictPolicy) :
    build g policy = (ParseTable.build g policy).map ofTable := by
  unfold build ParseTable.build
  dsimp only
  cases g.leftRecursive? (.ofGrammar g) with
  | some n => rfl
  | none =>
    dsimp only
    rw [assemble_eq hg]
    split <;> rfl

theorem build_eq_ok_iff (hg : g.Valid) {f : FilledTable} :
    build g policy = .ok f ↔ ∃ t, ParseTable.build g policy = .ok t ∧ ofTable t = f := by
  rw [build_eq hg]
  cases ParseTable.build g policy <;> simp [Except.map]

theorem build_eq_error_iff (hg : g.Valid) {e : ParseTable.Refusal} :
    build g policy = .error e ↔ ParseTable.build g policy = .error e := by
  rw [build_eq hg]
  cases ParseTable.build g policy <;> simp [Except.map]

/-! ## the whole table -/

/-- the cells hold what is selected for them, and every view of the table shows the same cells -/
structure Exact (g : Grammar) (f : FilledTable) : Prop where
  cells : ∀ n la, g.ListsSelected n la (f.cell n la) (f.candidates n la)
  predict : ∀ n la p, f.predict n la = some p ↔
    ∃ i, g.Selects n la i p ∧ ∀ j q, g.Selects n la j q → i ≤ j
  entries : ∀ n la ps, (n, la, ps) ∈ f.entries ↔ ps = f.candidates n la ∧ ps ≠ []
  entries_once : (f.entries.map fun e => (e.1, e.2.1)).Nodup
  conflicts : ∀ c, c ∈ f.conflicts ↔
    c.productions = f.candidates c.nonterminal c.lookahead ∧ 2 ≤ c.productions.length
  conflicts_once : (f.conflicts.map fun c => (c.nonterminal, c.lookahead)).Nodup
  isLL1 : f.isLL1 = true ↔ f.conflicts = []

theorem exact_ofTable (hg : g.Valid) (hnodup : g.nonterminals.Nodup) (policy : ConflictPolicy) :
    (ofTable (.assemble g (.ofGrammar g) policy)).Exact g := by
  let t := ParseTable.assemble g (.ofGrammar g) policy
  have hagrees : (ofTable t).Agrees t := agrees_ofTable hg policy
  have hproductions : ∀ sel ∈ t.selections, sel.production ∈ g.productions := fun sel hsel =>
    List.mem_of_getElem? (ParseTable.mem_selections.mp hsel).1
  have hlisted := ParseTable.listsSelected_cell g policy
  refine ⟨fun n la => ?_, fun n la p => ?_, fun n la ps => ?_, ?_, fun c => ?_, ?_,
    (conflicts_eq_nil_iff _).symm⟩
  · rw [hagrees.cell, hagrees.candidates]
    exact hlisted n la
  · rw [hagrees.predict]
    exact (hlisted n la).head?_eq_some_iff
  · rw [hagrees.entries, hagrees.candidates]
    exact ParseTable.mem_entries hg hproductions
  · rw [hagrees.entries]
    exact ParseTable.nodup_entries hnodup
  · rw [hagrees.conflicts, hagrees.candidates]
    exact ParseTable.mem_conflicts hg hproductions
  · rw [hagrees.conflicts]
    exact t.nodup_conflicts

/-! ## policies -/

/-- without left recursion the first-listed policy gives a table, conflicts or not -/
theorem build_firstListed (hg : g.Valid) (h : g.leftRecursive? (.ofGrammar g) = none) :
    build g .firstListed = .ok (ofTable (.assemble g (.ofGrammar g) .firstListed)) := by
  refine (build_eq_ok_iff hg).mpr ⟨_, ?_, rfl⟩
  exact ParseTable.build_eq_ok_iff.mpr ⟨h, rfl, fun e => nomatch e⟩

theorem firstListed_refuses_iff (hg : g.Valid) :
    (∃ e, build g .firstListed = .error e) ↔ ∃ n, g.LeftRecursive n := by
  have hnone := Grammar.leftRecursive?_eq_none_iff_derives hg
  constructor
  · rintro ⟨e, he⟩
    by_contra hrec
    rw [build_firstListed hg (hnone.mpr hrec)] at he
    cases he
  · intro hrec
    obtain ⟨n, hn⟩ := Option.ne_none_iff_exists'.mp (mt hnone.mp (not_not_intro hrec))
    exact ⟨_, (build_eq_error_iff hg).mpr (ParseTable.build_eq_leftRecursive_iff.mpr hn)⟩

/-- the conflicts that the one policy refuses are those that the other one keeps -/
theorem reject_refuses_iff (hg : g.Valid) {cs : List Conflict} :
    build g .reject = .error (.conflicts cs) ↔ (¬ ∃ n, g.LeftRecursive n) ∧
      ∃ f, build g .firstListed = .ok f ∧ f.conflicts = cs ∧ cs ≠ [] := by
  have hnone := Grammar.leftRecursive?_eq_none_iff_derives hg
  have hconflicts := conflicts_eq g (.ofGrammar g) .firstListed hg
  rw [build_eq_error_iff hg, ParseTable.build_eq_conflicts_iff, hnone]
  refine and_congr_right fun hrec => ⟨?_, ?_⟩
  · rintro ⟨_, hcs, hne⟩
    exact ⟨_, build_firstListed hg (hnone.mpr hrec), hconflicts.trans hcs, hne⟩
  · rintro ⟨f, hf, hcs, hne⟩
    obtain rfl := Except.ok.inj ((build_firstListed hg (hnone.mpr hrec)).symm.trans hf)
    exact ⟨rfl, hconflicts.symm.trans hcs, hne⟩

theorem ofTable_of_build (hg : g.Valid) {f : FilledTable} (h : build g policy = .ok f) :
    f = ofTable (.assemble g (.ofGrammar g) policy) := by
  obtain ⟨t, ht, rfl⟩ := (build_eq_ok_iff hg).mp h
  obtain ⟨_, rfl, _⟩ := ParseTable.build_eq_ok_iff.mp ht
  rfl

/-- **Cells are exact and ordered, and the policies read them alike**: the first-listed policy
refuses only left recursion, the other one also every table that shows a conflict under the first,
and where both give a table the predictions are the same.  The table that `ParseTable` computes is
refused for the same reasons, and shows the same. -/
theorem exact_of_build {start : String} {items : List Declaration.Item}
    (hg : (Declaration.ofItems start items).build = .ok g) :
    (∀ policy f, build g policy = .ok f → f.Exact g) ∧
    ((∃ e, build g .firstListed = .error e) ↔ ∃ n, g.LeftRecursive n) ∧
    (∀ cs, build g .reject = .error (.conflicts cs) ↔ (¬ ∃ n, g.LeftRecursive n) ∧
      ∃ f, build g .firstListed = .ok f ∧ f.conflicts = cs ∧ cs ≠ []) ∧
    (∀ f f', build g .firstListed = .ok f → build g .reject = .ok f' →
      ∀ n la, f.predict n la = f'.predict n la) ∧
    ∀ policy, build g policy = (ParseTable.build g policy).map ofTable ∧
      ∀ t, ParseTable.build g policy = .ok t → (ofTable t).Agrees t := by
  have hvalid := Declaration.valid_of_build hg
  have hnodup : g.nonterminals.Nodup := by
    rw [Declaration.nonterminals_of_build hg]
    exact Declaration.nodup_nonterminals_ofItems start items
  refine ⟨fun policy f hf => ?_, firstListed_refuses_iff hvalid,
    fun cs => reject_refuses_iff hvalid, fun f f' hf hf' n la => ?_,
    fun policy => ⟨build_eq hvalid policy, fun t ht => ?_⟩⟩
  · rw [ofTable_of_build hvalid hf]
    exact exact_ofTable hvalid hnodup policy
  · rw [ofTable_of_build hvalid hf, ofTable_of_build hvalid hf']
    rfl
  · obtain ⟨_, rfl, _⟩ := ParseTable.build_eq_ok_iff.mp ht
    exact agrees_ofTable hvalid policy

/-- the rules of `A` are scattered, and `a` selects `A → B` both through FIRST and through FOLLOW -/
def scattered : List Declaration.Item :=
  [.nonterminal "S", .nonterminal "A", .nonterminal "B", .terminal "a", .terminal "b",
    .rule "S" ["A", "a"], .rule "A" ["B"], .rule "B" ["a"], .rule "A" ["a", "b"], .rule "B" []]

def scatteredGrammar : Grammar :=
  ⟨"S", ["S", "A", "B"], ["a", "b"],
    [⟨"S", [.nonterminal "A", .terminal "a"]⟩, ⟨"A", [.nonterminal "B"]⟩, ⟨"B", [.terminal "a"]⟩,
      ⟨"A", [.terminal "a", .terminal "b"]⟩, ⟨"B", []⟩]⟩

def scatteredTable : FilledTable :=
  ⟨scatteredGrammar, .ofGrammar scatteredGrammar, .firstListed,
    fill scatteredGrammar (.ofGrammar scatteredGrammar)⟩

theorem cells_scattered :
    (Declaration.ofItems "S" scattered).build = .ok scatteredGrammar ∧
      build scatteredGrammar .firstListed = .ok scatteredTable ∧
      scatteredGrammar.ListsSelected "A" (.terminal "a") [1, 3]
        [⟨"A", [.nonterminal "B"]⟩, ⟨"A", [.terminal "a", .terminal "b"]⟩] ∧
      (∃ i, scatteredGrammar.Selects "A" (.terminal "a") i ⟨"A", [.nonterminal "B"]⟩ ∧
        ∀ j q, scatteredGrammar.Selects "A" (.terminal "a") j q → i ≤ j) ∧
      (¬ ∃ n, scatteredGrammar.LeftRecursive n) ∧
      build scatteredGrammar .reject = .error (.conflicts
        [⟨"A", .terminal "a", [⟨"A", [.nonterminal "B"]⟩, ⟨"A", [.terminal "a", .terminal "b"]⟩]⟩,
          ⟨"B", .terminal "a", [⟨"B", [.terminal "a"]⟩, ⟨"B", []⟩]⟩]) := by
  have hbuild : (Declaration.ofItems "S" scattered).build = .ok scatteredGrammar := rfl
  have htable : build scatteredGrammar .firstListed = .ok scatteredTable :=
    build_firstListed (Declaration.valid_of_build hbuild) (by decide)
  obtain ⟨hexact, hrefused, hreject, _⟩ := exact_of_build hbuild
  have hrec : ¬ ∃ n, scatteredGrammar.LeftRecursive n := by
    intro h
    obtain ⟨e, he⟩ := hrefused.mpr h
    rw [htable] at he
    cases he
  obtain ⟨hcells, hpredict, _⟩ := hexact _ _ htable
  have hcell : scatteredTable.cell "A" (.terminal "a") = [1, 3] := by decide
  have hcandidates : scatteredTable.candidates "A" (.terminal "a") =
      [⟨"A", [.nonterminal "B"]⟩, ⟨"A", [.terminal "a", .terminal "b"]⟩] := by decide
  have hfirst : scatteredTable.predict "A" (.terminal "a") = some ⟨"A", [.nonterminal "B"]⟩ := by
    decide
  have hlisted := hcells "A" (.terminal "a")
  rw [hcell, hcandidates] at hlisted
  exact ⟨hbuild, htable, hlisted, (hpredict "A" (.terminal "a") _).mp hfirst, hrec,
    (hreject _).mpr ⟨hrec, scatteredTable, htable, by decide, by decide⟩⟩

end FilledTable

end SpanishSyntax
