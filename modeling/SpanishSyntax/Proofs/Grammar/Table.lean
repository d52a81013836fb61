import SpanishSyntax.Grammar.Table
import SpanishSyntax.Proofs.Grammar.Follow
import SpanishSyntax.Proofs.Grammar.LeftRecursion

/-!
# What a prediction table holds

* `ParseTable.build_eq_ok_iff`     which tables are built, and why the others are refused
                                   (`build_eq_leftRecursive_iff`, `build_eq_conflicts_iff`);
* `ParseTable.mem_candidates`      the productions of a cell;
* `ParseTable.predict_of_isLL1`    without conflicts, every candidate is the prediction.
-/

namespace SpanishSyntax

theorem GrammarSets.mem_selectors {s : GrammarSets} {p : Production} {la : Lookahead} :
    la ∈ s.selectors p ↔ la ∈ s.follow.after s.first p.head p.body := by
  unfold selectors FollowTable.after
  rw [Ascending.mem_union, List.mem_append]
  rfl

namespace ParseTable

theorem build_eq_ok_iff {g : Grammar} {policy : ConflictPolicy} {t : ParseTable} :
    build g policy = .ok t ↔ g.leftRecursive? (.ofGrammar g) = none ∧
      t = assemble g (.ofGrammar g) policy ∧ (policy = .reject → t.conflicts = []) := by
  unfold build
  dsimp only
  split
  · rename_i n hn
    simp [hn]
  · rename_i hn
    rw [hn]
    split
    · rename_i h
      constructor
      · intro e
        cases e
      · rintro ⟨_, rfl, hc⟩
        exact absurd (hc h.1) h.2
    · rename_i h
      constructor
      · intro e
        obtain rfl := Except.ok.inj e
        exact ⟨rfl, rfl, fun hp => Decidable.not_not.mp fun hne => h ⟨hp, hne⟩⟩
      · rintro ⟨_, rfl, _⟩
        rfl

theorem build_eq_leftRecursive_iff {g : Grammar} {policy : ConflictPolicy} {n : String} :
    build g policy = .error (.leftRecursive n) ↔ g.leftRecursive? (.ofGrammar g) = some n := by
  unfold build
  dsimp only
  split
  · rename_i m hm
    rw [hm]
    simp
  · rename_i hn
    rw [hn]
    split <;> simp

theorem build_eq_conflicts_iff {g : Grammar} {policy : ConflictPolicy} {cs : List Conflict} :
    build g policy = .error (.conflicts cs) ↔ g.leftRecursive? (.ofGrammar g) = none ∧
      policy = .reject ∧ (assemble g (.ofGrammar g) policy).conflicts = cs ∧ cs ≠ [] := by
  unfold build
  dsimp only
  split
  · rename_i n hn
    simp [hn]
  · rename_i hn
    rw [hn]
    split
    · rename_i h
      constructor
      · intro e
        cases e
        exact ⟨rfl, h.1, rfl, h.2⟩
      · rintro ⟨_, _, rfl, _⟩
        rfl
    · rename_i h
      constructor
      · intro e
        cases e
      · rintro ⟨_, hpolicy, rfl, hne⟩
        exact absurd ⟨hpolicy, hne⟩ h

/-! ## cells -/

theorem mem_candidates {g : Grammar} {s : GrammarSets} {policy : ConflictPolicy}
    {n : String} {la : Lookahead} {p : Production} :
    p ∈ (assemble g s policy).candidates n la ↔
      p ∈ g.productions ∧ p.head = n ∧ la ∈ s.selectors p := by
  unfold candidates
  rw [List.mem_map]
  constructor
  · rintro ⟨sel, hsel, rfl⟩
    obtain ⟨hmem, hhead, hla⟩ := mem_cell.mp hsel
    obtain ⟨⟨q, i⟩, hq, rfl⟩ := List.mem_map.mp hmem
    exact ⟨List.fst_mem_of_mem_zipIdx hq, hhead, hla⟩
  · rintro ⟨hp, hhead, hla⟩
    obtain ⟨i, hi⟩ := List.mem_iff_getElem?.mp hp
    have hsel : (⟨i, p, s.selectors p⟩ : Selection) ∈ (assemble g s policy).selections :=
      List.mem_map.mpr ⟨(p, i), List.mk_mem_zipIdx_iff_getElem?.mpr hi, rfl⟩
    exact ⟨_, mem_cell.mpr ⟨hsel, hhead, hla⟩, rfl⟩

theorem mem_row {t : ParseTable} {n : String} {la : Lookahead} :
    la ∈ t.row n ↔ ∃ s ∈ t.selections, s.production.head = n ∧ la ∈ s.lookaheads := by
  have hfold : ∀ (l : List Lookahead) (ss : List Selection),
      la ∈ ss.foldl (fun l s => if s.production.head = n then Ascending.union l s.lookaheads
        else l) l ↔ la ∈ l ∨ ∃ s ∈ ss, s.production.head = n ∧ la ∈ s.lookaheads := by
    intro l ss
    induction ss generalizing l with
    | nil => simp
    | cons s ss ih =>
      rw [List.foldl_cons, ih]
      split
      · rw [Ascending.mem_union, or_assoc]
        simp [*]
      · simp [*]
  unfold row
  rw [hfold]
  simp

theorem ascends_row (t : ParseTable) (n : String) : Ascending.Ascends (t.row n) := by
  refine List.foldlRecOn (motive := Ascending.Ascends) t.selections _ Ascending.ascends_nil ?_
  intro l hl s _
  split
  · exact Ascending.ascends_union hl
  · exact hl

theorem length_candidates_le {t : ParseTable} (h : t.isLL1 = true) {n : String}
    (hn : n ∈ t.grammar.nonterminals) {la : Lookahead} (hla : la ∈ t.row n) :
    (t.candidates n la).length ≤ 1 := by
  have hall := List.all_eq_true.mp h (n, la, t.candidates n la)
    (List.mem_flatMap.mpr ⟨n, hn, List.mem_map.mpr ⟨la, hla, rfl⟩⟩)
  exact of_decide_eq_true hall

theorem predict_of_isLL1 {t : ParseTable} (h : t.isLL1 = true) {n : String}
    (hn : n ∈ t.grammar.nonterminals) {la : Lookahead} {p : Production}
    (hp : p ∈ t.candidates n la) : t.predict n la = some p := by
  obtain ⟨s, hs, rfl⟩ := List.mem_map.mp hp
  have hlen := length_candidates_le h hn (mem_row.mpr ⟨s, mem_cell.mp hs⟩)
  unfold predict
  match hc : t.candidates n la with
  | [] =>
    rw [hc] at hp
    cases hp
  | [q] =>
    rw [hc] at hp
    rw [List.mem_singleton.mp hp]
    rfl
  | q :: q' :: l =>
    rw [hc, List.length_cons, List.length_cons] at hlen
    omega

theorem mem_candidates_of_predict {t : ParseTable} {n : String} {la : Lookahead}
    {p : Production} (h : t.predict n la = some p) : p ∈ t.candidates n la :=
  List.mem_of_mem_head? h

/-- a cell that is not empty predicts -/
theorem exists_predict_of_mem {t : ParseTable} {n : String} {la : Lookahead} {p : Production}
    (h : p ∈ t.candidates n la) : ∃ q, t.predict n la = some q := by
  cases hc : t.candidates n la with
  | nil =>
    rw [hc] at h
    cases h
  | cons q qs => exact ⟨q, congrArg List.head? hc⟩

/-! ## what later passes rely on -/

/-- a table made for a grammar that is valid and not left-recursive -/
structure Built (g : Grammar) (t : ParseTable) : Prop where
  valid : g.Valid
  grammar : t.grammar = g
  sets : t.sets = .ofGrammar g
  candidates : ∀ n la p, p ∈ t.candidates n la ↔
    p ∈ g.productions ∧ p.head = n ∧ la ∈ t.sets.selectors p
  acyclic : ∀ n ∈ g.nonterminals, ¬ Relation.TransGen (g.Leads t.sets) n n

theorem built_of_build {d : Declaration} {g : Grammar} {policy : ConflictPolicy}
    {t : ParseTable} (hg : d.build = .ok g) (ht : build g policy = .ok t) : t.Built g := by
  have hvalid := Declaration.valid_of_build hg
  obtain ⟨hrec, rfl, _⟩ := build_eq_ok_iff.mp ht
  exact ⟨hvalid, rfl, rfl, fun _ _ _ => mem_candidates,
    (Grammar.leftRecursive?_eq_none_iff hvalid).mp hrec⟩

theorem Built.predicted {g : Grammar} {t : ParseTable} (hb : t.Built g) {n : String}
    {la : Lookahead} {p : Production} (hp : t.predict n la = some p) :
    p ∈ g.productions ∧ p.head = n ∧ la ∈ t.sets.selectors p :=
  (hb.candidates n la p).mp (mem_candidates_of_predict hp)

end ParseTable

end SpanishSyntax
