import SpanishSyntax.Proofs.Grammar.Follow

/-!
# FOLLOW sets are exact

`Grammar.StandsBehind g n la` says that a derived form shows the lookahead `la` behind the
nonterminal `n`.  Where `la` is the end of the input, the form is derived from the start symbol;
where it is a terminal, from any nonterminal.

* `Grammar.standsBehind_of_mem_after`   what a body brings behind one of its nonterminals is
                                        derived, if the set of its head is;
* `Grammar.derivedTable_followTable`    so the rounds collect only what is derived;
* `Grammar.mem_followTable_iff`         and, with `Grammar.covers_of_derives`, all of it.
-/

namespace SpanishSyntax

namespace FollowTable

variable {firsts : FirstTable} {t : FollowTable}

/-- what a covered form brings behind a nonterminal is in the set of that nonterminal -/
theorem Covers.after_subset {h n : String} {u v : List Symbol}
    (hc : Covers firsts t h (u ++ .nonterminal n :: v)) : t.after firsts h v ⊆ t.get n := by
  induction u with
  | nil => exact hc.1
  | cons x u ih =>
    cases x with
    | terminal a => exact ih hc
    | nonterminal m => exact ih hc.2

end FollowTable

namespace Grammar

open FollowTable

variable {g : Grammar}

def StandsBehind (g : Grammar) (n : String) : Lookahead → Prop
  | .endOfInput => ∃ u, g.Derives [.nonterminal g.start] (u ++ [.nonterminal n])
  | .terminal b => ∃ h ∈ g.nonterminals, ∃ u v,
      g.Derives [.nonterminal h] (u ++ .nonterminal n :: .terminal b :: v)

/-! ## nothing but what is derived -/

theorem derives_left_of_vanishing {n : String} {left rest : List Symbol}
    (hrest : g.Derives rest []) :
    g.Derives (left ++ .nonterminal n :: rest) (left ++ [.nonterminal n]) :=
  Derives.append_left (Derives.append_left hrest [.nonterminal n]) left

/-- what stands behind the head stands behind a nonterminal at the end of the body -/
theorem StandsBehind.of_vanishing {p : Production} (hp : p ∈ g.productions) {n : String}
    {left rest : List Symbol} (hbody : p.body = left ++ .nonterminal n :: rest)
    (hrest : g.Derives rest []) {la : Lookahead} (h : g.StandsBehind p.head la) :
    g.StandsBehind n la := by
  have hlast : g.Derives [.nonterminal p.head] (left ++ [.nonterminal n]) := by
    have hd := derives_body hp
    rw [hbody] at hd
    exact hd.trans (derives_left_of_vanishing hrest)
  cases la with
  | endOfInput =>
    obtain ⟨u, hu⟩ := h
    refine ⟨u ++ left, hu.trans ?_⟩
    rw [List.append_assoc]
    exact hlast.append_left u
  | terminal b =>
    obtain ⟨m, hm, u, v, huv⟩ := h
    refine ⟨m, hm, u ++ left, v, huv.trans ?_⟩
    have hd := (hlast.append_right (.terminal b :: v)).append_left u
    rw [List.append_assoc, List.singleton_append] at hd
    rwa [List.append_assoc]

theorem standsBehind_of_first (hg : g.Valid) {p : Production} (hp : p ∈ g.productions)
    {n b : String} {left rest v : List Symbol} (hbody : p.body = left ++ .nonterminal n :: rest)
    (hrest : g.Derives rest (.terminal b :: v)) : g.StandsBehind n (.terminal b) := by
  have hd := derives_body hp
  rw [hbody] at hd
  exact ⟨p.head, hg.head_mem p hp, left, v,
    hd.trans ((Derives.append_left hrest [.nonterminal n]).append_left left)⟩

/-- every entry holds only lookaheads that stand behind its nonterminal -/
def DerivedTable (g : Grammar) (t : FollowTable) : Prop :=
  ∀ e ∈ t, ∀ la ∈ e.2, g.StandsBehind e.1 la

theorem DerivedTable.of_mem_get {t : FollowTable} (ht : g.DerivedTable t) {n : String}
    {la : Lookahead} (h : la ∈ t.get n) : g.StandsBehind n la := by
  obtain ⟨s, hs, hla⟩ := exists_of_mem_get h
  exact ht _ hs la hla

theorem standsBehind_of_mem_after (hg : g.Valid) {t : FollowTable} (ht : g.DerivedTable t)
    {p : Production} (hp : p ∈ g.productions) {n : String} {left rest : List Symbol}
    (hbody : p.body = left ++ .nonterminal n :: rest) {la : Lookahead}
    (h : la ∈ t.after g.firstTable p.head rest) : g.StandsBehind n la := by
  have hfirst := isFirst_firstOf hg rest
  rcases mem_after.mp h with ⟨b, hb, rfl⟩ | ⟨hnull, hla⟩
  · obtain ⟨v, hv⟩ := (hfirst.terminals b).mp hb
    exact standsBehind_of_first hg hp hbody hv
  · exact (ht.of_mem_get hla).of_vanishing hp hbody (hfirst.nullable.mp hnull)

/-- the induction is on the rest of the body, with the part that the walk has left behind -/
theorem DerivedTable.walk (hg : g.Valid) {p : Production} (hp : p ∈ g.productions)
    {left rest : List Symbol} (hbody : p.body = left ++ rest) {t : FollowTable}
    (ht : g.DerivedTable t) : g.DerivedTable (FollowTable.walk g.firstTable p.head t rest) := by
  induction rest generalizing left t with
  | nil => exact ht
  | cons x rest ih =>
    have hnext : p.body = (left ++ [x]) ++ rest := by rw [hbody, List.append_assoc]; rfl
    cases x with
    | terminal a => exact ih hnext ht
    | nonterminal n =>
      refine ih hnext ?_
      rw [enlarge_eq_change]
      refine SetTable.forall_change (fun m s => ∀ la ∈ s, g.StandsBehind m la) ht
        fun s hs la hla => ?_
      rcases Ascending.mem_union.mp hla with hla | hla
      · exact hs la hla
      · exact standsBehind_of_mem_after hg ht hp hbody hla

theorem derivedTable_followSeed (g : Grammar) : g.DerivedTable g.followSeed := by
  intro e he la hla
  obtain ⟨n, _, rfl⟩ := List.mem_map.mp he
  change la ∈ if n = g.start then [Lookahead.endOfInput] else [] at hla
  split at hla
  · rename_i hn
    obtain rfl := List.mem_singleton.mp hla
    rw [hn]
    exact ⟨[], .refl⟩
  · cases hla

theorem derivedTable_followTable (hg : g.Valid) :
    g.DerivedTable (g.followTable g.firstTable) := by
  refine settle_invariant (fun t ht => ?_) _ (derivedTable_followSeed g)
  refine List.foldlRecOn (motive := g.DerivedTable) g.productions _ ht fun _ ht p hp => ?_
  have hbody : p.body = [] ++ p.body := rfl
  exact ht.walk hg hp hbody

/-! ## all that is derived -/

theorem StandsBehind.mem_followTable (hg : g.Valid) {n : String} {la : Lookahead}
    (h : g.StandsBehind n la) : la ∈ (g.followTable g.firstTable).get n := by
  cases la with
  | endOfInput =>
    obtain ⟨u, hu⟩ := h
    have hsub := (covers_of_derives hg hu).after_subset
    rw [after_nil] at hsub
    exact hsub (endOfInput_mem_followTable hg (shaped_firstTable hg))
  | terminal b =>
    obtain ⟨m, _, u, v, huv⟩ := h
    have hsub := (covers_of_derives hg huv).after_subset
    exact hsub (mem_after.mpr (.inl ⟨b, List.mem_singleton.mpr rfl, rfl⟩))

theorem mem_followTable_iff (hg : g.Valid) {n : String} {la : Lookahead} :
    la ∈ (g.followTable g.firstTable).get n ↔ g.StandsBehind n la :=
  ⟨fun h => (derivedTable_followTable hg).of_mem_get h, fun h => h.mem_followTable hg⟩

/-- **FOLLOW is exact** for every nonterminal of a built grammar: the end of the input is in the
set if a form derived from the start symbol ends in the nonterminal, and a terminal if a form
derived from some nonterminal, reachable or not, has the two side by side. -/
theorem mem_follow_iff_of_build {d : Declaration} (hg : d.build = .ok g) {n : String}
    (hn : n ∈ g.nonterminals) :
    ∃ s, (GrammarSets.ofGrammar g).follow.get? n = some s ∧
      (.endOfInput ∈ s ↔ ∃ u, g.Derives [.nonterminal g.start] (u ++ [.nonterminal n])) ∧
      ∀ b, .terminal b ∈ s ↔ ∃ h ∈ g.nonterminals, ∃ u v,
        g.Derives [.nonterminal h] (u ++ .nonterminal n :: .terminal b :: v) := by
  have hvalid := Declaration.valid_of_build hg
  obtain ⟨s, hs⟩ := (shaped_followTable hvalid (shaped_firstTable hvalid)).exists_get? hn
  have hmem : ∀ la, la ∈ s ↔ g.StandsBehind n la := by
    intro la
    rw [← get_of_get? hs]
    exact mem_followTable_iff hvalid
  exact ⟨s, hs, hmem .endOfInput, fun b => hmem (.terminal b)⟩

/-- in `recursiveGrammar` the `b` behind `A` is seen past an `S` that vanishes, and the `a` behind
`U` only from `U` itself -/
theorem follow_recursiveGrammar :
    recursive.build = .ok recursiveGrammar ∧
      (∃ h ∈ recursiveGrammar.nonterminals, ∃ u v, recursiveGrammar.Derives [.nonterminal h]
        (u ++ .nonterminal "A" :: .terminal "b" :: v)) ∧
      (¬ ∃ u, recursiveGrammar.Derives [.nonterminal "S"] (u ++ [.nonterminal "A"])) ∧
      ∃ h ∈ recursiveGrammar.nonterminals, ∃ u v, recursiveGrammar.Derives [.nonterminal h]
        (u ++ .nonterminal "U" :: .terminal "a" :: v) := by
  have hbuild : recursive.build = .ok recursiveGrammar := rfl
  obtain ⟨sA, hA, hendA, hbehindA⟩ := mem_follow_iff_of_build hbuild (n := "A") (by decide)
  obtain ⟨sU, hU, _, hbehindU⟩ := mem_follow_iff_of_build hbuild (n := "U") (by decide)
  obtain rfl : sA = [.terminal "b"] := Option.some.inj (hA.symm.trans (by decide))
  obtain rfl : sU = [.terminal "a"] := Option.some.inj (hU.symm.trans (by decide))
  refine ⟨hbuild, (hbehindA "b").mp (by decide), fun h => ?_, (hbehindU "a").mp (by decide)⟩
  exact absurd (hendA.mpr h) (by decide)

end Grammar

end SpanishSyntax
