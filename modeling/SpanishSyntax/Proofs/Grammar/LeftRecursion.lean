import SpanishSyntax.Grammar.LeftRecursion
import SpanishSyntax.Proofs.Grammar.First

/-!
# The closure of the leading relation

`Grammar.mem_leadClosure` says that the rounds of `Grammar.leadClosure` find exactly what the
one-step relation `Grammar.Leads` reaches in one or more steps.
-/

namespace SpanishSyntax

namespace GrammarSets

variable {s : GrammarSets}

theorem nullable_firstOf_nonterminal (s : GrammarSets) (n : String) :
    (s.first.firstOf [.nonterminal n]).nullable = s.isNullable n := by
  unfold isNullable
  cases h : s.first.get? n with
  | none => rw [FirstTable.firstOf_undeclared h]; rfl
  | some f => rw [FirstTable.firstOf_nonterminal h]

/-- what leads `u ++ v` leads `u`, or leads `v` behind a `u` that can vanish -/
theorem mem_leading_append {u v : List Symbol} {n : String} :
    n ∈ s.leading (u ++ v) ↔
      n ∈ s.leading u ∨ (s.first.firstOf u).nullable = true ∧ n ∈ s.leading v := by
  induction u with
  | nil => simp [leading, FirstTable.firstOf]
  | cons x u ih =>
    rw [FirstTable.nullable_firstOf_cons]
    cases x with
    | terminal a => simp [leading, FirstTable.firstOf]
    | nonterminal m =>
      rw [nullable_firstOf_nonterminal, List.cons_append, leading, leading]
      cases hm : s.isNullable m <;> simp [ih, or_assoc]

/-- a nonterminal behind a part that can vanish is leading -/
theorem mem_leading_of_nullable {u v : List Symbol} {n : String}
    (hu : (s.first.firstOf u).nullable = true) : n ∈ s.leading (u ++ .nonterminal n :: v) :=
  mem_leading_append.mpr (.inr ⟨hu, List.mem_cons_self⟩)

theorem mem_of_mem_leading {u : List Symbol} {n : String} (h : n ∈ s.leading u) :
    .nonterminal n ∈ u := by
  induction u with
  | nil => cases h
  | cons x u ih =>
    cases x with
    | terminal a => cases h
    | nonterminal m =>
      rcases List.mem_cons.mp h with rfl | h
      · exact List.mem_cons_self
      · split at h
        · exact List.mem_cons_of_mem _ (ih h)
        · cases h

end GrammarSets

namespace Grammar

variable {g : Grammar} {s : GrammarSets}

/-- some production of `m` can bring `n` to the front -/
def Leads (g : Grammar) (s : GrammarSets) (m n : String) : Prop := n ∈ g.leads s m

theorem leads_iff {m n : String} :
    g.Leads s m n ↔ ∃ p ∈ g.productions, p.head = m ∧ n ∈ s.leading p.body := by
  unfold Leads leads
  rw [List.mem_flatMap]
  refine exists_congr fun p => and_congr_right fun _ => ?_
  split <;> simp [*]

theorem mem_nonterminals_of_leads (hg : g.Valid) {m n : String} (h : g.Leads s m n) :
    n ∈ g.nonterminals := by
  obtain ⟨p, hp, _, hn⟩ := leads_iff.mp h
  exact hg.declares_body p hp _ (GrammarSets.mem_of_mem_leading hn)

theorem mem_leadRound {reached : List String} {n : String} :
    n ∈ g.leadRound s reached ↔ n ∈ reached ∨ ∃ m ∈ reached, g.Leads s m n := by
  unfold leadRound
  rw [Ascending.mem_union, List.mem_flatMap]
  rfl

/-- an ascending list of nonterminals -/
def ListsNonterminals (g : Grammar) (l : List String) : Prop :=
  Ascending.Ascends l ∧ l ⊆ g.nonterminals

theorem inflates_leadRound (hg : g.Valid) (s : GrammarSets) :
    Inflates (ListsNonterminals g) List.length (g.leadRound s) where
  keeps l h := by
    refine ⟨Ascending.ascends_union h.1, fun n hn => ?_⟩
    rcases mem_leadRound.mp hn with hn | ⟨m, _, hn⟩
    · exact h.2 hn
    · exact mem_nonterminals_of_leads hg hn
  grows l h := Ascending.union_grows h.1 _

theorem listsNonterminals_leads (hg : g.Valid) (s : GrammarSets) (m : String) :
    g.ListsNonterminals (Ascending.ofList (g.leads s m)) :=
  ⟨Ascending.ascends_ofList _, fun _ hn =>
    mem_nonterminals_of_leads hg (Ascending.mem_ofList.mp hn)⟩

theorem leadRound_leadClosure (hg : g.Valid) (s : GrammarSets) (m : String) :
    g.leadRound s (g.leadClosure s m) = g.leadClosure s m :=
  (inflates_leadRound hg s).settle_fixed (fun _ h => Ascending.length_le h.1 h.2)
    (Nat.le_succ _) (listsNonterminals_leads hg s m)

theorem leads_subset_leadClosure (g : Grammar) (s : GrammarSets) {m n : String}
    (h : g.Leads s m n) : n ∈ g.leadClosure s m := by
  refine settle_invariant (P := fun l => n ∈ l) (fun l hl => ?_) _ (Ascending.mem_ofList.mpr h)
  exact mem_leadRound.mpr (.inl hl)

theorem mem_leadClosure (hg : g.Valid) {m n : String} :
    n ∈ g.leadClosure s m ↔ Relation.TransGen (g.Leads s) m n := by
  constructor
  · have hreached : ∀ n ∈ g.leadClosure s m, Relation.TransGen (g.Leads s) m n := by
      refine settle_invariant (P := fun l => ∀ n ∈ l, Relation.TransGen (g.Leads s) m n)
        (fun l hl n hn => ?_) _ fun n hn => .single (Ascending.mem_ofList.mp hn)
      rcases mem_leadRound.mp hn with hn | ⟨k, hk, hn⟩
      · exact hl n hn
      · exact (hl k hk).tail hn
    exact hreached n
  · intro h
    induction h with
    | single h => exact leads_subset_leadClosure g s h
    | tail _ hlast ih =>
      rw [← leadRound_leadClosure hg]
      exact mem_leadRound.mpr (.inr ⟨_, ih, hlast⟩)

theorem leftRecursive?_eq_none_iff (hg : g.Valid) :
    g.leftRecursive? s = none ↔ ∀ n ∈ g.nonterminals, ¬ Relation.TransGen (g.Leads s) n n := by
  unfold leftRecursive?
  rw [List.find?_eq_none]
  refine forall₂_congr fun n _ => ?_
  rw [decide_eq_true_eq, mem_leadClosure hg]

end Grammar

end SpanishSyntax
