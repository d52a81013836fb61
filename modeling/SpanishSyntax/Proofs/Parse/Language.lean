import SpanishSyntax.Proofs.Parse.Acceptance

/-!
# Without conflicts the parser decides the language

However a form reads the tokens, the lookahead of each replaced nonterminal selects the production
used: it begins what the body reads, or, if the body reads nothing, what is read behind it, and
FOLLOW covers that (`Grammar.lookahead_mem_after`).  With at most one production in a cell the
selected production is the predicted one (`ParseTable.reads_of_readsFreely`).
-/

namespace SpanishSyntax

theorem Grammar.lookahead_mem_after {g : Grammar} (hg : g.Valid) {follow : FollowTable}
    {u : List Symbol} {ps : List Production} {w : List String} (h : g.ReadsFreely u ps w)
    {n : String} {rest : List String} (hrest : Lookahead.ofRest rest ∈ follow.get n) :
    Lookahead.ofRest (w ++ rest) ∈ follow.after g.firstTable n u := by
  have hfirst := isFirst_firstOf hg u
  have hd := h.derives
  rw [FollowTable.mem_after]
  cases w with
  | nil => exact .inr ⟨hfirst.nullable.mpr hd, hrest⟩
  | cons a w => exact .inl ⟨a, (hfirst.terminals a).mpr ⟨_, hd⟩, rfl⟩

namespace ParseTable

open Parse

variable {g : Grammar} {t : ParseTable}

/-- the induction is on the reading; the invariant is that the form is covered for the start
symbol, behind which the input ends -/
theorem reads_of_readsFreely (hb : t.Built g) (hll : t.isLL1 = true) {u : List Symbol}
    {ps : List Production} {w : List String} (h : g.ReadsFreely u ps w)
    (hu : FollowTable.Covers t.sets.first t.sets.follow g.start u) :
    g.Reads t.Chooses u ps w := by
  have hfirst : t.sets.first = g.firstTable := by rw [hb.sets]; rfl
  have hfollow : t.sets.follow = g.followTable g.firstTable := by rw [hb.sets]; rfl
  have hshape := Grammar.shaped_firstTable hb.valid
  have hstart : Lookahead.ofRest [] ∈ t.sets.follow.get g.start :=
    hfollow ▸ Grammar.endOfInput_mem_followTable hb.valid hshape
  have hclosed : FollowTable.Closed g t.sets.first t.sets.follow := by
    rw [hfirst, hfollow]
    exact Grammar.closed_followTable hb.valid hshape
  induction h with
  | nil => exact .nil
  | token _ ih => exact .token (ih hu)
  | @expand p u ps w hp _ h ih =>
    obtain ⟨hhead, hu⟩ := hu
    refine .expand hp ?_ (ih (FollowTable.covers_append (hclosed p hp) hhead hu))
    obtain ⟨ps₁, ps₂, w₁, w₂, rfl, rfl, hbody, hrest⟩ := Grammar.ReadsFreely.split h
    have hbehind := Grammar.lookahead_mem_after hb.valid hrest hstart
    rw [← hfirst, List.append_nil] at hbehind
    have hselect := Grammar.lookahead_mem_after hb.valid hbody (hhead hbehind)
    rw [← hfirst] at hselect
    have hcand := (hb.candidates p.head _ p).mpr ⟨hp, rfl, GrammarSets.mem_selectors.mpr hselect⟩
    exact predict_of_isLL1 hll (hb.grammar ▸ hb.valid.head_mem p hp) hcand

theorem parse_of_leftmostDerivation (hb : t.Built g) (hll : t.isLL1 = true) {w : List String}
    {ps : List Production}
    (h : g.LeftmostDerivation [.nonterminal g.start] ps (w.map .terminal)) :
    (t.parse w).accepted = true ∧ expansions (t.parse w).steps = ps.map shown := by
  have hread : g.ReadsFreely [.nonterminal g.start] ps w := Grammar.leftmost_iff_reads.mp h
  exact (accepted_iff_reads hb w ps).mpr
    (reads_of_readsFreely hb hll hread (FollowTable.covers_self _ _ _))

/-- **A table without conflicts decides the language**, and its traces are the leftmost
derivations, of which each accepted sequence has one. -/
theorem accepted_iff_derives_of_isLL1 {d : Declaration} {policy : ConflictPolicy}
    (hg : d.build = .ok g) (ht : build g policy = .ok t) (hll : t.isLL1 = true)
    (w : List String) :
    ((t.parse w).accepted = true ↔ g.Derives [.nonterminal g.start] (w.map .terminal)) ∧
    (∀ ps, g.LeftmostDerivation [.nonterminal g.start] ps (w.map .terminal) →
      (t.parse w).accepted = true ∧
        expansions (t.parse w).steps = ps.map fun p => (p.head, p.body)) ∧
    ((t.parse w).accepted = true →
      ∃! ps, g.LeftmostDerivation [.nonterminal g.start] ps (w.map .terminal)) := by
  have hb := built_of_build hg ht
  have hleft : ∀ ps, g.LeftmostDerivation [.nonterminal g.start] ps (w.map .terminal) →
      (t.parse w).accepted = true ∧ expansions (t.parse w).steps = ps.map shown :=
    fun ps h => parse_of_leftmostDerivation hb hll h
  have hderive : g.Derives [.nonterminal g.start] (w.map .terminal) →
      ∃ ps, g.LeftmostDerivation [.nonterminal g.start] ps (w.map .terminal) := by
    intro h
    obtain ⟨ps, hps⟩ := Grammar.exists_reads_of_derives h
    exact ⟨ps, Grammar.leftmost_iff_reads.mpr hps⟩
  have haccept : (t.parse w).accepted = true → g.Derives [.nonterminal g.start] (w.map .terminal) :=
    fun h => (exists_reads_of_accepted hb h).elim fun _ hps => hps.derives
  refine ⟨⟨haccept, fun h => ?_⟩, hleft, fun h => ?_⟩
  · obtain ⟨ps, hps⟩ := hderive h
    exact (hleft ps hps).1
  · obtain ⟨ps, hps⟩ := hderive (haccept h)
    refine ⟨ps, hps, fun qs hqs => ?_⟩
    have hsame := (hleft qs hqs).2.symm.trans (hleft ps hps).2
    exact List.map_injective_iff.mpr shown_injective hsame

/-- a noun with any number of adjectives behind it, and perhaps an article -/
def nounPhrase : Declaration :=
  ⟨"SN", ["SN", "Det", "Adjs"], ["art", "sust", "adj"],
    [("SN", ["Det", "sust", "Adjs"]), ("Det", ["art"]), ("Det", []), ("Adjs", ["adj", "Adjs"]),
      ("Adjs", [])]⟩

def nounPhraseGrammar : Grammar :=
  ⟨"SN", ["SN", "Det", "Adjs"], ["art", "sust", "adj"],
    [⟨"SN", [.nonterminal "Det", .terminal "sust", .nonterminal "Adjs"]⟩,
      ⟨"Det", [.terminal "art"]⟩, ⟨"Det", []⟩,
      ⟨"Adjs", [.terminal "adj", .nonterminal "Adjs"]⟩, ⟨"Adjs", []⟩]⟩

def nounPhraseTable : ParseTable :=
  .assemble nounPhraseGrammar (.ofGrammar nounPhraseGrammar) .reject

theorem build_nounPhraseGrammar : build nounPhraseGrammar .reject = .ok nounPhraseTable :=
  build_eq_ok_iff.mpr ⟨by decide, rfl, fun _ => by decide⟩

theorem parse_nounPhrase :
    nounPhrase.build = .ok nounPhraseGrammar ∧
      build nounPhraseGrammar .reject = .ok nounPhraseTable ∧
      nounPhraseTable.isLL1 = true ∧
      (nounPhraseTable.parse ["sust", "adj"]).accepted = true ∧
      expansions (nounPhraseTable.parse ["sust", "adj"]).steps =
        [("SN", [.nonterminal "Det", .terminal "sust", .nonterminal "Adjs"]), ("Det", []),
          ("Adjs", [.terminal "adj", .nonterminal "Adjs"]), ("Adjs", [])] := by
  have hSN : ⟨"SN", [.nonterminal "Det", .terminal "sust", .nonterminal "Adjs"]⟩ ∈
      nounPhraseGrammar.productions := by decide
  have hDet : ⟨"Det", []⟩ ∈ nounPhraseGrammar.productions := by decide
  have hAdj : ⟨"Adjs", [.terminal "adj", .nonterminal "Adjs"]⟩ ∈ nounPhraseGrammar.productions := by
    decide
  have hend : ⟨"Adjs", []⟩ ∈ nounPhraseGrammar.productions := by decide
  have hread : nounPhraseGrammar.ReadsFreely [.nonterminal "SN"] [_, _, _, _] ["sust", "adj"] :=
    .expand hSN trivial (.expand hDet trivial (.token (.expand hAdj trivial (.token
      (.expand hend trivial .nil)))))
  have hll : nounPhraseTable.isLL1 = true := by decide
  obtain ⟨_, htrace, _⟩ := accepted_iff_derives_of_isLL1 (d := nounPhrase)
    (g := nounPhraseGrammar) rfl build_nounPhraseGrammar hll ["sust", "adj"]
  obtain ⟨haccept, hexp⟩ := htrace _ (Grammar.leftmost_iff_reads.mpr hread)
  exact ⟨rfl, build_nounPhraseGrammar, hll, haccept, hexp⟩

end ParseTable

end SpanishSyntax
