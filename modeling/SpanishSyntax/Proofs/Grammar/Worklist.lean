import SpanishSyntax.Grammar.Worklist
import SpanishSyntax.Proofs.Grammar.LeftRecursion
import SpanishSyntax.Proofs.Grammar.Passes

/-!
# The worklist of the search for left recursion runs empty

An entry that is looked at for the first time leaves less to be seen, any other makes the list
shorter; so the search ends, although the list grows (`exists_searchEnds`).  On the way, what the
start or a seen name leads to is seen or still on the list (`Explored`).  Once the list is empty,
all that the start reaches is seen, and the start is not.

* `Grammar.exists_leadsBack`          the search ends, with the answer of the leading relation;
* `Grammar.leftRecursionSearch_iff`   so it finds what the closures find;
* `Grammar.loops_end`                 with the passes of FIRST and FOLLOW: every loop ends.
-/

namespace SpanishSyntax

section
variable {next : String → List String} {start : String} {seen pending names : List String}

/-- one step from `m` to `n` -/
def StepsTo (next : String → List String) (m n : String) : Prop := n ∈ next m

/-- what holds of the names that were seen and of those still to come -/
structure Explored (next : String → List String) (start : String) (seen pending : List String) :
    Prop where
  reached : ∀ n ∈ pending, Relation.TransGen (StepsTo next) start n
  start_notMem : start ∉ seen
  closed : ∀ m, m = start ∨ m ∈ seen → ∀ n ∈ next m, n ∈ seen ∨ n ∈ pending

namespace Explored

theorem init (next : String → List String) (start : String) :
    Explored next start [] (next start).reverse where
  reached _ hn := .single (List.mem_reverse.mp hn)
  start_notMem h := nomatch h
  closed m hm n hn := by
    obtain rfl := hm.resolve_right fun h => nomatch h
    exact .inr (List.mem_reverse.mpr hn)

/-- a name seen before brings nothing -/
theorem skip {n : String} (h : Explored next start seen (n :: pending)) (hn : n ∈ seen) :
    Explored next start seen pending where
  reached m hm := h.reached m (List.mem_cons_of_mem n hm)
  start_notMem := h.start_notMem
  closed m hm k hk := by
    rcases h.closed m hm k hk with hk | hk
    · exact .inl hk
    · rcases List.mem_cons.mp hk with rfl | hk
      · exact .inl hn
      · exact .inr hk

theorem visit {n : String} (h : Explored next start seen (n :: pending)) (hn : n ≠ start) :
    Explored next start (Ascending.insert n seen) ((next n).reverse ++ pending) where
  reached m hm := by
    rcases List.mem_append.mp hm with hm | hm
    · exact (h.reached n List.mem_cons_self).tail (List.mem_reverse.mp hm)
    · exact h.reached m (List.mem_cons_of_mem n hm)
  start_notMem hmem :=
    (Ascending.mem_insert.mp hmem).elim (fun e => hn e.symm) h.start_notMem
  closed m hm k hk := by
    rw [Ascending.mem_insert, or_left_comm] at hm
    rcases hm with rfl | hm
    · exact .inr (List.mem_append.mpr (.inl (List.mem_reverse.mpr hk)))
    · rcases h.closed m hm k hk with hk | hk
      · exact .inl (Ascending.mem_insert.mpr (.inr hk))
      · rcases List.mem_cons.mp hk with rfl | hk
        · exact .inl (Ascending.mem_insert.mpr (.inl rfl))
        · exact .inr (List.mem_append.mpr (.inr hk))

/-- with nothing still to come, everything that can be reached was seen -/
theorem mem_seen (h : Explored next start seen []) {n : String}
    (hn : Relation.TransGen (StepsTo next) start n) : n ∈ seen := by
  induction hn with
  | single hn => exact (h.closed _ (.inl rfl) _ hn).resolve_right fun h => nomatch h
  | tail _ hn ih => exact (h.closed _ (.inr ih) _ hn).resolve_right fun h => nomatch h

end Explored

def unseen (names seen : List String) : List String := names.filter (· ∉ seen)

theorem length_unseen_insert_lt {n : String} (hn : n ∈ names) (hseen : n ∉ seen) :
    (unseen names (Ascending.insert n seen)).length < (unseen names seen).length := by
  have hfilter : unseen names (Ascending.insert n seen) = (unseen names seen).filter (· ≠ n) := by
    unfold unseen
    rw [List.filter_filter]
    refine List.filter_congr fun m _ => ?_
    simp [Ascending.mem_insert]
  rw [hfilter]
  refine List.length_filter_lt_length_iff_exists.mpr ⟨n, ?_, by simp⟩
  exact List.mem_filter.mpr ⟨hn, decide_eq_true hseen⟩

/-- the search ends, and comes back exactly if the start reaches itself -/
theorem exists_searchEnds (hnames : ∀ m, next m ⊆ names) (seen pending : List String)
    (h : Explored next start seen pending) :
    ∃ answer, SearchEnds next start seen pending answer ∧
      (answer = true ↔ Relation.TransGen (StepsTo next) start start) := by
  match pending with
  | [] =>
    refine ⟨false, .exhausted, fun hback => (nomatch hback), fun hback => ?_⟩
    exact absurd (h.mem_seen hback) h.start_notMem
  | n :: pending =>
    have hreached := h.reached n List.mem_cons_self
    by_cases hstart : n = start
    · subst hstart
      exact ⟨true, .back, fun _ => hreached, fun _ => rfl⟩
    · by_cases hseen : n ∈ seen
      · -- as many names are unseen as before, and the list is shorter
        obtain ⟨answer, hrest, hanswer⟩ :=
          exists_searchEnds hnames seen pending (h.skip hseen)
        exact ⟨answer, .skip hstart hseen hrest, hanswer⟩
      · have hn : n ∈ names := by
          obtain ⟨m, _, hm⟩ := Relation.TransGen.tail'_iff.mp hreached
          exact hnames m hm
        have hless := length_unseen_insert_lt hn hseen
        obtain ⟨answer, hrest, hanswer⟩ := exists_searchEnds hnames _ _ (h.visit hstart)
        exact ⟨answer, .visit hstart hseen hrest, hanswer⟩
termination_by ((unseen names seen).length, pending.length)

theorem SearchEnds.unique {a b : Bool} (h : SearchEnds next start seen pending a)
    (h' : SearchEnds next start seen pending b) : a = b := by
  induction h with
  | exhausted => cases h'; rfl
  | back =>
    cases h' with
    | back => rfl
    | skip hn _ _ => exact absurd rfl hn
    | visit hn _ _ => exact absurd rfl hn
  | skip hn hseen _ ih =>
    cases h' with
    | back => exact absurd rfl hn
    | skip _ _ rest => exact ih rest
    | visit _ hnew _ => exact absurd hseen hnew
  | visit hn hnew _ ih =>
    cases h' with
    | back => exact absurd rfl hn
    | skip _ hseen _ => exact absurd hseen hnew
    | visit _ _ rest => exact ih rest

theorem findsFirst_iff {ends : String → Bool → Prop} {p : String → Bool}
    (h : ∀ n a, ends n a ↔ a = p n) {ns : List String} {r : Option String} :
    FindsFirst ends ns r ↔ r = ns.find? p := by
  induction ns generalizing r with
  | nil =>
    constructor
    · rintro ⟨⟩
      rfl
    · rintro rfl
      exact .none
  | cons n ns ih =>
    rw [List.find?_cons]
    cases hp : p n with
    | true =>
      constructor
      · rintro (_ | _ | ⟨hends, _⟩)
        · rfl
        · rw [h, hp] at hends
          cases hends
      · rintro rfl
        exact .found ((h n true).mpr hp.symm)
    | false =>
      constructor
      · rintro (_ | hends | ⟨_, hrest⟩)
        · rw [h, hp] at hends
          cases hends
        · exact ih.mp hrest
      · exact fun hr => .later ((h n false).mpr hp.symm) (ih.mpr hr)

end

namespace Grammar

variable {g : Grammar}

theorem stepsTo_leadingSet (g : Grammar) (s : GrammarSets) :
    StepsTo (g.leadingSet s) = g.Leads s := by
  funext m n
  exact propext Ascending.mem_ofList

theorem exists_leadsBack (hg : g.Valid) (s : GrammarSets) (start : String) :
    ∃ answer, (∀ a, g.LeadsBack s start a ↔ a = answer) ∧
      (answer = true ↔ Relation.TransGen (g.Leads s) start start) := by
  have hnames : ∀ m, g.leadingSet s m ⊆ g.nonterminals := fun m _ hn =>
    mem_nonterminals_of_leads hg (Ascending.mem_ofList.mp hn)
  obtain ⟨answer, hends, hanswer⟩ :=
    exists_searchEnds hnames [] _ (Explored.init (g.leadingSet s) start)
  rw [stepsTo_leadingSet] at hanswer
  exact ⟨answer, fun a => ⟨fun ha => ha.unique hends, fun ha => ha ▸ hends⟩, hanswer⟩

theorem leadsBack_iff (hg : g.Valid) (s : GrammarSets) (start : String) (a : Bool) :
    g.LeadsBack s start a ↔ a = decide (start ∈ g.leadClosure s start) := by
  obtain ⟨answer, hends, hanswer⟩ := exists_leadsBack hg s start
  have hclosure : answer = decide (start ∈ g.leadClosure s start) := by
    rw [Bool.eq_iff_iff, decide_eq_true_iff, hanswer, mem_leadClosure hg]
  rw [hends, hclosure]

theorem leftRecursionSearch_iff (hg : g.Valid) (s : GrammarSets) {r : Option String} :
    g.LeftRecursionSearch s r ↔ r = g.leftRecursive? s :=
  findsFirst_iff (leadsBack_iff hg s)

/-- **The loops end** for every built grammar.  Insertions into FIRST and FOLLOW sets note a change
exactly if the set grew, and passes exactly if the table changed; the passes come to an end, and one
more adds nothing; the worklist runs empty for every nonterminal, be it one that leads to itself. -/
theorem loops_end {start : String} {items : List Declaration.Item}
    (hg : (Declaration.ofItems start items).build = .ok g) :
    (∀ s t : FirstSet, NotesGrowth FirstSet.Within s (s.merge t)) ∧
      (∀ m l : List Lookahead, NotesGrowth (· ⊆ ·) l (Ascending.noteUnion m l)) ∧
      (Reports (FirstTable.Shaped g) g.firstRound g.firstPass ∧
        (∀ t, g.FirstLoop t ↔ t = g.firstTable) ∧
        g.firstPass g.firstTable = .same g.firstTable) ∧
      (Reports (FollowTable.Shaped g) (g.followRound g.firstTable) (g.followPass g.firstTable) ∧
        (∀ t, g.FollowLoop g.firstTable t ↔ t = g.followTable g.firstTable) ∧
        g.followPass g.firstTable (g.followTable g.firstTable) =
          .same (g.followTable g.firstTable)) ∧
      ∀ s : GrammarSets,
        (∀ n ∈ g.nonterminals, ∃ answer, (∀ a, g.LeadsBack s n a ↔ a = answer) ∧
          (answer = true ↔ Relation.TransGen (g.Leads s) n n)) ∧
        ∀ r, g.LeftRecursionSearch s r ↔ r = g.leftRecursive? s := by
  have hvalid := Declaration.valid_of_build hg
  have hnodup : g.nonterminals.Nodup := by
    rw [Declaration.nonterminals_of_build hg]
    exact Declaration.nodup_nonterminals_ofItems start items
  have hfirsts := shaped_firstTable hvalid
  refine ⟨FirstSet.notesGrowth_merge, Ascending.notesGrowth_noteUnion, ⟨?_, ?_, ?_⟩, ⟨?_, ?_, ?_⟩,
    fun s => ⟨fun n _ => exists_leadsBack hvalid s n, fun _ => leftRecursionSearch_iff hvalid s⟩⟩
  · exact reports_firstPass hvalid hnodup
  · exact fun _ => firstLoop_iff hvalid hnodup
  · exact firstPass_firstTable hvalid hnodup
  · exact reports_followPass hvalid hnodup hfirsts
  · exact fun _ => followLoop_iff hvalid hnodup hfirsts
  · exact followPass_followTable hvalid hnodup hfirsts

/-- the items of `recursive`, where `S` leads to itself behind `A` and `U` at once -/
def recursiveItems : List Declaration.Item :=
  [.nonterminal "S", .nonterminal "A", .nonterminal "U", .terminal "a", .terminal "b",
    .rule "S" ["A", "S", "b"], .rule "S" [], .rule "A" [], .rule "U" ["U", "a"]]

theorem loops_end_recursiveGrammar :
    (Declaration.ofItems "S" recursiveItems).build = .ok recursiveGrammar ∧
      recursiveGrammar.FirstLoop [("S", ⟨["b"], true⟩), ("A", ⟨[], true⟩), ("U", ⟨[], false⟩)] ∧
      recursiveGrammar.LeadsBack (GrammarSets.ofGrammar recursiveGrammar) "U" true ∧
      recursiveGrammar.LeftRecursionSearch (GrammarSets.ofGrammar recursiveGrammar)
        (some "S") := by
  have hbuild : (Declaration.ofItems "S" recursiveItems).build = .ok recursiveGrammar := rfl
  obtain ⟨_, _, ⟨_, hfirst, _⟩, _, hsearch⟩ := loops_end hbuild
  obtain ⟨hback, hrecursive⟩ := hsearch (GrammarSets.ofGrammar recursiveGrammar)
  obtain ⟨answer, hends, hU⟩ := hback "U" (by decide)
  have hleads : recursiveGrammar.Leads (GrammarSets.ofGrammar recursiveGrammar) "U" "U" := by
    show "U" ∈ recursiveGrammar.leads (GrammarSets.ofGrammar recursiveGrammar) "U"
    decide
  refine ⟨hbuild, (hfirst _).mpr (by decide), ?_, (hrecursive _).mpr (by decide)⟩
  rw [hends, hU.mpr (.single hleads)]

end Grammar

end SpanishSyntax
