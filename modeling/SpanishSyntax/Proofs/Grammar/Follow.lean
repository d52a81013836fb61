import SpanishSyntax.Proofs.Grammar.First

/-!
# FOLLOW sets hold what can stand behind a nonterminal

`FollowTable.Covers firsts t h u` says that every nonterminal of the form `u` has in its set
whatever `u` brings behind it, and the set of `h` where the rest of `u` can vanish.

* `Grammar.followRound_followTable`  the rounds end at a fixed point;
* `Grammar.closed_followTable`       there, every body is covered for its head;
* `Grammar.covers_of_derives`        a derivation step keeps a form covered, so everything that
                                     `h` derives is covered for `h`.
-/

namespace SpanishSyntax

namespace Lookahead

theorem not_endOfInput_lt (a : Lookahead) : ¬ endOfInput < a := by
  intro h
  cases a <;> cases h

instance : IsStrictTotalOrder Lookahead (· < ·) where
  trichotomous a b hab hba := by
    cases a with
    | endOfInput =>
      cases b with
      | endOfInput => rfl
      | terminal b => exact absurd (terminal_lt_endOfInput b) hba
    | terminal a =>
      cases b with
      | endOfInput => exact absurd (terminal_lt_endOfInput a) hab
      | terminal b =>
        rw [terminal_lt_terminal] at hab hba
        rw [le_antisymm (not_lt.mp hba) (not_lt.mp hab)]
  irrefl a h := by
    cases a with
    | endOfInput => exact not_endOfInput_lt _ h
    | terminal a => exact lt_irrefl a (terminal_lt_terminal.mp h)
  trans a b c hab hbc := by
    cases a with
    | endOfInput => exact absurd hab (not_endOfInput_lt b)
    | terminal a =>
      cases b with
      | endOfInput => exact absurd hbc (not_endOfInput_lt c)
      | terminal b =>
        cases c with
        | endOfInput => exact terminal_lt_endOfInput a
        | terminal c =>
          rw [terminal_lt_terminal] at hab hbc ⊢
          exact lt_trans hab hbc

end Lookahead

/-- what a lookahead can be -/
def Grammar.lookaheads (g : Grammar) : List Lookahead := .endOfInput :: g.terminals.map .terminal

namespace FollowTable

variable {firsts : FirstTable} {t : FollowTable}

theorem enlarge_eq_change (t : FollowTable) (n : String) (s : List Lookahead) :
    t.enlarge n s = SetTable.change n (Ascending.union · s) t := rfl

theorem get_of_get? {n : String} {s : List Lookahead} (h : t.get? n = some s) : t.get n = s := by
  rw [get, h]
  rfl

theorem exists_of_mem_get {n : String} {la : Lookahead} (h : la ∈ t.get n) :
    ∃ s, (n, s) ∈ t ∧ la ∈ s := by
  cases hs : t.get? n with
  | none => simp [get, hs] at h
  | some s =>
    rw [get_of_get? hs] at h
    exact ⟨s, SetTable.mem_of_lookup hs, h⟩

/-! ## what stands behind a symbol of a body -/

theorem mem_after {h : String} {rest : List Symbol} {la : Lookahead} :
    la ∈ t.after firsts h rest ↔ (∃ a ∈ (firsts.firstOf rest).terminals, .terminal a = la) ∨
      (firsts.firstOf rest).nullable = true ∧ la ∈ t.get h := by
  unfold after
  rw [List.mem_append, List.mem_map]
  cases (firsts.firstOf rest).nullable <;> simp

theorem after_nil (firsts : FirstTable) (t : FollowTable) (h : String) :
    t.after firsts h [] = t.get h := by
  simp [after, FirstTable.firstOf]

theorem after_subset_of_within {h : String} {rest rest' : List Symbol}
    (hw : (firsts.firstOf rest).Within (firsts.firstOf rest')) :
    t.after firsts h rest ⊆ t.after firsts h rest' := by
  intro la hla
  rw [mem_after] at hla ⊢
  rcases hla with ⟨a, ha, rfl⟩ | ⟨hn, hla⟩
  · exact .inl ⟨a, hw.terminals ha, rfl⟩
  · exact .inr ⟨hw.nullable hn, hla⟩

/-- a body may be put in place of its head `n`, if the set of `n` holds what comes behind -/
theorem after_append_subset {h n : String} {u right : List Symbol}
    (hn : t.after firsts h right ⊆ t.get n) :
    t.after firsts h (u ++ right) ⊆ t.after firsts n u := by
  intro la hla
  rw [mem_after]
  rcases mem_after.mp hla with ⟨a, ha, rfl⟩ | ⟨hnull, hla⟩
  · rcases (FirstTable.mem_firstOf_append u right).mp ha with ha | ⟨hu, ha⟩
    · exact .inl ⟨a, ha, rfl⟩
    · exact .inr ⟨hu, hn (mem_after.mpr (.inl ⟨a, ha, rfl⟩))⟩
  · obtain ⟨hu, hright⟩ := (FirstTable.nullable_firstOf_append u right).mp hnull
    exact .inr ⟨hu, hn (mem_after.mpr (.inr ⟨hright, hla⟩))⟩

def Covers (firsts : FirstTable) (t : FollowTable) (h : String) : List Symbol → Prop
  | [] => True
  | .terminal _ :: rest => Covers firsts t h rest
  | .nonterminal n :: rest => t.after firsts h rest ⊆ t.get n ∧ Covers firsts t h rest

theorem covers_self (firsts : FirstTable) (t : FollowTable) (h : String) :
    Covers firsts t h [.nonterminal h] := by
  refine ⟨?_, trivial⟩
  rw [after_nil]
  exact fun _ hla => hla

theorem covers_append {h n : String} {u right : List Symbol} (hu : Covers firsts t n u)
    (hn : t.after firsts h right ⊆ t.get n) (hright : Covers firsts t h right) :
    Covers firsts t h (u ++ right) := by
  induction u with
  | nil => exact hright
  | cons x u ih =>
    cases x with
    | terminal a => exact ih hu
    | nonterminal m =>
      obtain ⟨hm, hu⟩ := hu
      exact ⟨fun _ hla => hm (after_append_subset hn hla), ih hu⟩

def Closed (g : Grammar) (firsts : FirstTable) (t : FollowTable) : Prop :=
  ∀ p ∈ g.productions, Covers firsts t p.head p.body

theorem Closed.covers_of_produces {g : Grammar} (hf : firsts.Closed g) (ht : Closed g firsts t)
    {h : String} {u v : List Symbol} (hu : Covers firsts t h u) (hp : g.Produces u v) :
    Covers firsts t h v := by
  obtain ⟨hp, left, right⟩ := hp
  induction left with
  | nil =>
    have hbody := covers_append (ht _ hp) hu.1 hu.2
    exact hbody
  | cons x left ih =>
    cases x with
    | terminal a => exact ih hu
    | nonterminal m =>
      obtain ⟨hm, hu⟩ := hu
      have hw := hf.within_of_produces (Grammar.Produces.replace hp left right)
      exact ⟨fun _ hla => hm (after_subset_of_within hw hla), ih hu⟩

theorem Closed.covers_of_derives {g : Grammar} (hf : firsts.Closed g) (ht : Closed g firsts t)
    {h : String} {u v : List Symbol} (hu : Covers firsts t h u) (hd : g.Derives u v) :
    Covers firsts t h v := by
  induction hd with
  | refl => exact hu
  | tail _ hlast ih => exact ht.covers_of_produces hf ih hlast

/-- the end of the input can stand behind the start symbol -/
def Marked (g : Grammar) (t : FollowTable) : Prop :=
  ∀ e ∈ t, e.1 = g.start → .endOfInput ∈ e.2

theorem Marked.walk {g : Grammar} (ht : t.Marked g) (firsts : FirstTable) (head : String)
    (body : List Symbol) : (walk firsts head t body).Marked g := by
  induction body generalizing t with
  | nil => exact ht
  | cons x rest ih =>
    cases x with
    | terminal a => exact ih ht
    | nonterminal n =>
      exact ih (SetTable.forall_change (fun m s => m = g.start → Lookahead.endOfInput ∈ s) ht
        fun _ hs hm => Ascending.mem_union.mpr (.inl (hs hm)))

/-! ## rounds -/

/-- one ascending set of known lookaheads for each nonterminal -/
structure Shaped (g : Grammar) (t : FollowTable) : Prop where
  keys : t.map (·.1) = g.nonterminals
  ascends : ∀ e ∈ t, Ascending.Ascends e.2
  subset : ∀ e ∈ t, e.2 ⊆ g.lookaheads

def size (t : FollowTable) : Nat := SetTable.weight List.length t

variable {g : Grammar}

theorem Shaped.size_le (h : t.Shaped g) :
    t.size ≤ g.nonterminals.length * (g.terminals.length + 1) := by
  have hw : t.size ≤ t.length * g.lookaheads.length := total_le fun e he =>
    Ascending.length_le (h.ascends e he) (h.subset e he)
  rwa [← List.length_map (fun e : String × List Lookahead => e.1), h.keys, Grammar.lookaheads,
    List.length_cons, List.length_map] at hw

theorem Shaped.exists_get? (h : t.Shaped g) {n : String} (hn : n ∈ g.nonterminals) :
    ∃ s, t.get? n = some s :=
  SetTable.exists_lookup (by rwa [h.keys])

theorem Shaped.get_subset (h : t.Shaped g) (n : String) :
    t.get n ⊆ g.lookaheads := by
  intro la hla
  obtain ⟨s, hs, hla⟩ := exists_of_mem_get hla
  exact h.subset _ hs hla

theorem Shaped.after_subset (hf : firsts.Shaped g) (h : t.Shaped g) (head : String)
    {rest : List Symbol} (hrest : ∀ x ∈ rest, g.Declares x) :
    t.after firsts head rest ⊆ g.lookaheads := by
  intro la hla
  rcases mem_after.mp hla with ⟨a, ha, rfl⟩ | ⟨_, hla⟩
  · have ha := hf.firstOf_subset hrest ha
    exact List.mem_cons_of_mem _ (List.mem_map_of_mem ha)
  · exact h.get_subset head hla

theorem inflates_enlarge (hf : firsts.Shaped g) (n head : String) {rest : List Symbol}
    (hrest : ∀ x ∈ rest, g.Declares x) :
    Inflates (Shaped g) size (fun t => t.enlarge n (t.after firsts head rest)) where
  keeps t h := by
    have hafter := h.after_subset hf head hrest
    show Shaped g (SetTable.change n (Ascending.union · (t.after firsts head rest)) t)
    exact ⟨(SetTable.keys_change _ _ t).trans h.keys,
      SetTable.forall_change (fun _ => Ascending.Ascends) h.ascends
        fun _ hs => Ascending.ascends_union hs,
      SetTable.forall_change (fun _ s => s ⊆ g.lookaheads) h.subset
        fun _ hs _ hla => (Ascending.mem_union.mp hla).elim (fun hla => hs hla)
          fun hla => hafter hla⟩
  grows t h := SetTable.change_grows List.length n (Ascending.union · (t.after firsts head rest))
    fun e he => Ascending.union_grows (h.ascends e he) _

theorem inflates_walk (hf : firsts.Shaped g) (head : String) {body : List Symbol}
    (hbody : ∀ x ∈ body, g.Declares x) :
    Inflates (Shaped g) size (fun t => walk firsts head t body) := by
  induction body with
  | nil => exact Inflates.refl
  | cons x rest ih =>
    obtain ⟨_, hrest⟩ := List.forall_mem_cons.mp hbody
    cases x with
    | terminal a => exact ih hrest
    | nonterminal n => exact (inflates_enlarge hf n head hrest).comp (ih hrest)

/-- a walk along a body that adds nothing has found the body covered -/
theorem covers_of_walk (hf : firsts.Shaped g) (ht : t.Shaped g) {head : String}
    {body : List Symbol} (hbody : ∀ x ∈ body, g.Declares x)
    (e : walk firsts head t body = t) : Covers firsts t head body := by
  induction body with
  | nil => trivial
  | cons x rest ih =>
    obtain ⟨hx, hrest⟩ := List.forall_mem_cons.mp hbody
    cases x with
    | terminal a => exact ih hrest e
    | nonterminal n =>
      obtain ⟨he, hwalk⟩ := (inflates_enlarge hf n head hrest).fixed_comp
        (inflates_walk hf head hrest) ht e
      obtain ⟨s, hs⟩ := ht.exists_get? hx
      rw [enlarge_eq_change] at he
      have hsame := SetTable.fixed_of_change he (SetTable.mem_of_lookup hs)
      refine ⟨fun la hla => ?_, ih hrest hwalk⟩
      rw [get_of_get? hs, ← hsame]
      exact Ascending.mem_union.mpr (.inr hla)

end FollowTable

namespace Grammar

open FollowTable

variable {g : Grammar} {firsts : FirstTable}

theorem inflates_followRound (hg : g.Valid) (hf : firsts.Shaped g) :
    Inflates (Shaped g) FollowTable.size (g.followRound firsts) :=
  Inflates.foldl fun p hp => inflates_walk hf p.head (hg.declares_body p hp)

theorem shaped_followSeed (g : Grammar) : g.followSeed.Shaped g where
  keys := by
    unfold followSeed
    rw [List.map_map]
    exact List.map_id _
  ascends e he := by
    obtain ⟨n, _, rfl⟩ := List.mem_map.mp he
    show Ascending.Ascends (if n = g.start then [Lookahead.endOfInput] else [])
    split
    · exact List.pairwise_singleton _ _
    · exact Ascending.ascends_nil
  subset e he := by
    obtain ⟨n, _, rfl⟩ := List.mem_map.mp he
    show (if n = g.start then [Lookahead.endOfInput] else []) ⊆ g.lookaheads
    split <;> simp [lookaheads]

theorem marked_followSeed (g : Grammar) : g.followSeed.Marked g := by
  intro e he hn
  obtain ⟨n, _, rfl⟩ := List.mem_map.mp he
  show .endOfInput ∈ if n = g.start then [Lookahead.endOfInput] else []
  rw [if_pos hn]
  exact List.mem_singleton.mpr rfl

theorem shaped_followTable (hg : g.Valid) (hf : firsts.Shaped g) :
    (g.followTable firsts).Shaped g :=
  (inflates_followRound hg hf).settle g.followRounds (shaped_followSeed g)

theorem followRound_followTable (hg : g.Valid) (hf : firsts.Shaped g) :
    g.followRound firsts (g.followTable firsts) = g.followTable firsts :=
  (inflates_followRound hg hf).settle_fixed (fun _ h => h.size_le) (Nat.le_succ _)
    (shaped_followSeed g)

theorem closed_followTable (hg : g.Valid) (hf : firsts.Shaped g) :
    FollowTable.Closed g firsts (g.followTable firsts) := by
  intro p hp
  have hshape := shaped_followTable hg hf
  have hfixed := Inflates.fixed_foldl
    (fun q hq => inflates_walk hf q.head (hg.declares_body q hq)) hshape
    (followRound_followTable hg hf) p hp
  exact covers_of_walk hf hshape (hg.declares_body p hp) hfixed

/-- the start symbol keeps the mark that it is seeded with -/
theorem endOfInput_mem_followTable (hg : g.Valid) (hf : firsts.Shaped g) :
    .endOfInput ∈ (g.followTable firsts).get g.start := by
  have hkeep : (g.followTable firsts).Marked g := by
    refine settle_invariant (fun t ht => ?_) _ (marked_followSeed g)
    exact List.foldlRecOn (motive := FollowTable.Marked g) g.productions _ ht
      fun _ ht p _ => ht.walk firsts p.head p.body
  obtain ⟨s, hs⟩ := (shaped_followTable hg hf).exists_get? hg.start_mem
  rw [get_of_get? hs]
  exact hkeep _ (SetTable.mem_of_lookup hs) rfl

theorem covers_of_derives (hg : g.Valid) {h : String} {u : List Symbol}
    (hd : g.Derives [.nonterminal h] u) :
    Covers g.firstTable (g.followTable g.firstTable) h u :=
  (closed_followTable hg (shaped_firstTable hg)).covers_of_derives (closed_firstTable hg)
    (covers_self _ _ h) hd

end Grammar

end SpanishSyntax
