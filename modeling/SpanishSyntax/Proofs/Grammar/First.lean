import Mathlib.Data.String.Basic
import SpanishSyntax.Grammar.Follow
import SpanishSyntax.Proofs.Ascending
import SpanishSyntax.Proofs.Grammar.Derivation
import SpanishSyntax.Proofs.Grammar.SetTable
import SpanishSyntax.Proofs.Grammar.Valid

/-!
# FIRST sets are exact

* `FirstTable.mem_firstOf_append`, `FirstTable.nullable_firstOf_append`   FIRST of a sequence;
* `Grammar.firstRound_firstTable`    the rounds end at a fixed point;
* `Grammar.closed_firstTable`        there, the body of a production brings nothing that its
                                     head lacks, so a derivation can only lose from FIRST;
* `Grammar.confirmsTable_firstTable` what the rounds collect is derived, at every moment;
* `Grammar.isFirst_firstOf`, `Grammar.isFirst_of_build`   both together: FIRST holds exactly what
                                     is derived.
-/

namespace SpanishSyntax

namespace FirstSet

/-- `s` claims nothing that `t` lacks -/
structure Within (s t : FirstSet) : Prop where
  terminals : s.terminals ⊆ t.terminals
  nullable : s.nullable = true → t.nullable = true

theorem Within.refl (s : FirstSet) : s.Within s := ⟨fun _ h => h, fun h => h⟩

theorem Within.trans {s t r : FirstSet} (h : s.Within t) (h' : t.Within r) : s.Within r :=
  ⟨fun _ ha => h'.terminals (h.terminals ha), fun hn => h'.nullable (h.nullable hn)⟩

theorem within_union_right (s t : FirstSet) : t.Within (s.union t) :=
  ⟨fun _ ha => mem_union.mpr (.inr ha), fun hn => by simp [union, hn]⟩

/-- an ascending set of known names -/
structure Fits (names : List String) (s : FirstSet) : Prop where
  ascends : Ascending.Ascends s.terminals
  subset : s.terminals ⊆ names

def size (s : FirstSet) : Nat := s.terminals.length + s.nullable.toNat

theorem fits_empty (names : List String) : empty.Fits names :=
  ⟨Ascending.ascends_nil, fun _ h => nomatch h⟩

theorem Fits.size_le {names : List String} {s : FirstSet} (h : s.Fits names) :
    s.size ≤ names.length + 1 := by
  have h1 := Ascending.length_le h.ascends h.subset
  have h2 := Bool.toNat_le s.nullable
  unfold size
  omega

theorem Fits.union {names : List String} {s t : FirstSet} (h : s.Fits names)
    (ht : t.terminals ⊆ names) : (s.union t).Fits names where
  ascends := Ascending.ascends_union h.ascends
  subset _ ha := (mem_union.mp ha).elim (fun ha => h.subset ha) (fun ha => ht ha)

theorem Fits.union_grows {names : List String} {s : FirstSet} (h : s.Fits names) (t : FirstSet) :
    s.union t = s ∨ s.size < (s.union t).size := by
  have hn : s.nullable.toNat ≤ (s.nullable || t.nullable).toNat := by
    cases s.nullable
    · exact Nat.zero_le _
    · exact Nat.le_refl _
  have hlen := Ascending.union_grows h.ascends t.terminals
  show (⟨Ascending.union s.terminals t.terminals, s.nullable || t.nullable⟩ : FirstSet) = s ∨
    s.terminals.length + s.nullable.toNat <
      (Ascending.union s.terminals t.terminals).length + (s.nullable || t.nullable).toNat
  rcases hlen with e | hlt
  · rw [e]
    cases hs : s.nullable <;> cases ht : t.nullable <;> simp [← hs]
  · right
    omega

end FirstSet

namespace FirstTable

variable {t : FirstTable}

/-! ## FIRST of a sequence -/

theorem enlarge_eq_change (t : FirstTable) (n : String) (s : FirstSet) :
    t.enlarge n s = SetTable.change n (·.union s) t := rfl

theorem firstOf_nonterminal {n : String} {s : FirstSet} (h : t.get? n = some s) :
    t.firstOf [.nonterminal n] = s := by
  obtain ⟨terminals, nullable⟩ := s
  cases nullable <;> simp [firstOf, h, Ascending.union]

theorem firstOf_undeclared {n : String} (h : t.get? n = none) (rest : List Symbol) :
    t.firstOf (.nonterminal n :: rest) = FirstSet.empty := by
  simp [firstOf, h]

theorem nullable_firstOf_cons (x : Symbol) (rest : List Symbol) :
    (t.firstOf (x :: rest)).nullable = true ↔
      (t.firstOf [x]).nullable = true ∧ (t.firstOf rest).nullable = true := by
  cases x with
  | terminal a => simp [firstOf]
  | nonterminal n =>
    cases hs : t.get? n with
    | none => simp [firstOf_undeclared hs, FirstSet.empty]
    | some s =>
      rw [firstOf_nonterminal hs]
      cases hn : s.nullable <;> simp [firstOf, hs, hn]

theorem mem_firstOf_cons {a : String} (x : Symbol) (rest : List Symbol) :
    a ∈ (t.firstOf (x :: rest)).terminals ↔ a ∈ (t.firstOf [x]).terminals ∨
      (t.firstOf [x]).nullable = true ∧ a ∈ (t.firstOf rest).terminals := by
  cases x with
  | terminal b => simp [firstOf]
  | nonterminal n =>
    cases hs : t.get? n with
    | none => simp [firstOf_undeclared hs, FirstSet.empty]
    | some s =>
      rw [firstOf_nonterminal hs]
      cases hn : s.nullable <;> simp [firstOf, hs, hn, Ascending.mem_union]

theorem nullable_firstOf_append (u v : List Symbol) :
    (t.firstOf (u ++ v)).nullable = true ↔
      (t.firstOf u).nullable = true ∧ (t.firstOf v).nullable = true := by
  induction u with
  | nil => simp [firstOf]
  | cons x u ih =>
    rw [List.cons_append, nullable_firstOf_cons, ih, nullable_firstOf_cons x u, and_assoc]

theorem mem_firstOf_append {a : String} (u v : List Symbol) :
    a ∈ (t.firstOf (u ++ v)).terminals ↔ a ∈ (t.firstOf u).terminals ∨
      (t.firstOf u).nullable = true ∧ a ∈ (t.firstOf v).terminals := by
  induction u with
  | nil => simp [firstOf]
  | cons x u ih =>
    rw [List.cons_append, mem_firstOf_cons, ih, mem_firstOf_cons x u, nullable_firstOf_cons x u,
      and_or_left, and_assoc, or_assoc]

theorem within_append {u u' v v' : List Symbol} (hu : (t.firstOf u).Within (t.firstOf u'))
    (hv : (t.firstOf v).Within (t.firstOf v')) :
    (t.firstOf (u ++ v)).Within (t.firstOf (u' ++ v')) where
  terminals a ha := by
    rw [mem_firstOf_append] at ha ⊢
    exact ha.imp (fun h => hu.terminals h) fun h => ⟨hu.nullable h.1, hv.terminals h.2⟩
  nullable h := by
    rw [nullable_firstOf_append] at h ⊢
    exact ⟨hu.nullable h.1, hv.nullable h.2⟩

/-! ## rounds -/

/-- one fitting set for each nonterminal -/
structure Shaped (g : Grammar) (t : FirstTable) : Prop where
  keys : t.map (·.1) = g.nonterminals
  fits : ∀ e ∈ t, e.2.Fits g.terminals

def size (t : FirstTable) : Nat := SetTable.weight FirstSet.size t

variable {g : Grammar}

theorem Shaped.size_le (h : t.Shaped g) :
    t.size ≤ g.nonterminals.length * (g.terminals.length + 1) := by
  have hw : t.size ≤ t.length * (g.terminals.length + 1) :=
    total_le fun e he => (h.fits e he).size_le
  rwa [← h.keys, List.length_map]

theorem Shaped.exists_get? (h : t.Shaped g) {n : String} (hn : n ∈ g.nonterminals) :
    ∃ s, t.get? n = some s :=
  SetTable.exists_lookup (by rwa [h.keys])

theorem Shaped.firstOf_subset (h : t.Shaped g) {u : List Symbol} (hu : ∀ x ∈ u, g.Declares x) :
    (t.firstOf u).terminals ⊆ g.terminals := by
  induction u with
  | nil => exact fun _ ha => nomatch ha
  | cons x u ih =>
    obtain ⟨hx, hu⟩ := List.forall_mem_cons.mp hu
    intro a ha
    rcases (mem_firstOf_cons x u).mp ha with ha | ⟨_, ha⟩
    · cases x with
      | terminal b =>
        obtain rfl := List.mem_singleton.mp ha
        exact hx
      | nonterminal n =>
        obtain ⟨s, hs⟩ := h.exists_get? hx
        rw [firstOf_nonterminal hs] at ha
        exact (h.fits _ (SetTable.mem_of_lookup hs)).subset ha
    · exact ih hu ha

theorem inflates_enlarge (hg : g.Valid) {p : Production} (hp : p ∈ g.productions) :
    Inflates (Shaped g) size (fun t => t.enlarge p.head (t.firstOf p.body)) where
  keeps t h := by
    have hbody := h.firstOf_subset (hg.declares_body p hp)
    show Shaped g (SetTable.change p.head (·.union (t.firstOf p.body)) t)
    exact ⟨(SetTable.keys_change _ _ t).trans h.keys,
      SetTable.forall_change (fun _ => FirstSet.Fits g.terminals) h.fits
        fun _ hs => hs.union hbody⟩
  grows t h := SetTable.change_grows FirstSet.size p.head (·.union (t.firstOf p.body))
    fun e he => (h.fits e he).union_grows _

/-- the body of a production brings nothing that the set of its head lacks -/
def Closed (g : Grammar) (t : FirstTable) : Prop :=
  ∀ p ∈ g.productions, (t.firstOf p.body).Within (t.firstOf [.nonterminal p.head])

theorem Closed.within_of_produces (h : t.Closed g) {u v : List Symbol} (hp : g.Produces u v) :
    (t.firstOf v).Within (t.firstOf u) := by
  obtain ⟨hp, left, right⟩ := hp
  have hright := within_append (h _ hp) (FirstSet.Within.refl (t.firstOf right))
  exact within_append (FirstSet.Within.refl (t.firstOf left)) hright

theorem Closed.within_of_derives (h : t.Closed g) {u v : List Symbol} (hd : g.Derives u v) :
    (t.firstOf v).Within (t.firstOf u) := by
  induction hd with
  | refl => exact FirstSet.Within.refl _
  | tail _ hlast ih => exact (h.within_of_produces hlast).trans ih

end FirstTable

namespace Grammar

open FirstTable

variable {g : Grammar}

theorem inflates_firstRound (hg : g.Valid) : Inflates (Shaped g) FirstTable.size g.firstRound :=
  Inflates.foldl fun _ hp => inflates_enlarge hg hp

theorem shaped_firstSeed (g : Grammar) :
    FirstTable.Shaped g (g.nonterminals.map fun n => (n, FirstSet.empty)) where
  keys := by
    rw [List.map_map]
    exact List.map_id _
  fits e he := by
    obtain ⟨n, _, rfl⟩ := List.mem_map.mp he
    exact FirstSet.fits_empty _

theorem shaped_firstTable (hg : g.Valid) : g.firstTable.Shaped g :=
  (inflates_firstRound hg).settle g.firstRounds (shaped_firstSeed g)

theorem firstRound_firstTable (hg : g.Valid) : g.firstRound g.firstTable = g.firstTable :=
  (inflates_firstRound hg).settle_fixed (fun _ h => h.size_le) (Nat.le_succ _)
    (shaped_firstSeed g)

theorem closed_firstTable (hg : g.Valid) : g.firstTable.Closed g := by
  intro p hp
  have hshape := shaped_firstTable hg
  have hfixed := Inflates.fixed_foldl (fun _ hq => inflates_enlarge hg hq) hshape
    (firstRound_firstTable hg) p hp
  obtain ⟨s, hs⟩ := hshape.exists_get? (hg.head_mem p hp)
  rw [enlarge_eq_change] at hfixed
  have hsame := SetTable.fixed_of_change hfixed (SetTable.mem_of_lookup hs)
  rw [firstOf_nonterminal hs]
  exact hsame ▸ FirstSet.within_union_right s (g.firstTable.firstOf p.body)

/-! ## exactness -/

/-- the set claims only what the form derives -/
structure Confirms (g : Grammar) (u : List Symbol) (s : FirstSet) : Prop where
  nullable : s.nullable = true → g.Derives u []
  terminals : ∀ a ∈ s.terminals, ∃ v, g.Derives u (.terminal a :: v)

theorem confirms_empty (g : Grammar) (u : List Symbol) : g.Confirms u FirstSet.empty :=
  ⟨fun h => (nomatch h), fun _ h => (nomatch h)⟩

theorem Confirms.union {u : List Symbol} {s t : FirstSet} (hs : g.Confirms u s)
    (ht : g.Confirms u t) : g.Confirms u (s.union t) where
  nullable h := (Bool.or_eq_true _ _ ▸ h).elim hs.nullable ht.nullable
  terminals a ha := (FirstSet.mem_union.mp ha).elim (hs.terminals a) (ht.terminals a)

theorem Confirms.of_derives {u v : List Symbol} {s : FirstSet} (h : g.Confirms v s)
    (hd : g.Derives u v) : g.Confirms u s where
  nullable hn := hd.trans (h.nullable hn)
  terminals a ha := by
    obtain ⟨w, hw⟩ := h.terminals a ha
    exact ⟨w, hd.trans hw⟩

/-- every entry claims only what its nonterminal derives -/
def ConfirmsTable (g : Grammar) (t : FirstTable) : Prop :=
  ∀ e ∈ t, g.Confirms [.nonterminal e.1] e.2

theorem confirms_firstOf {t : FirstTable} (ht : g.ConfirmsTable t) (u : List Symbol) :
    g.Confirms u (t.firstOf u) := by
  induction u with
  | nil => exact ⟨fun _ => .refl, fun _ ha => nomatch ha⟩
  | cons x u ih =>
    have hx : g.Confirms [x] (t.firstOf [x]) := by
      cases x with
      | terminal a =>
        refine ⟨fun h => (nomatch h), fun b hb => ?_⟩
        obtain rfl := List.mem_singleton.mp hb
        exact ⟨[], .refl⟩
      | nonterminal n =>
        cases hs : t.get? n with
        | none =>
          rw [firstOf_undeclared hs]
          exact confirms_empty g _
        | some s =>
          rw [firstOf_nonterminal hs]
          exact ht _ (SetTable.mem_of_lookup hs)
    constructor
    · intro h
      obtain ⟨hnx, hnu⟩ := (nullable_firstOf_cons x u).mp h
      exact Derives.append (hx.nullable hnx) (ih.nullable hnu)
    · intro a ha
      rcases (mem_firstOf_cons x u).mp ha with ha | ⟨hnx, ha⟩
      · obtain ⟨v, hv⟩ := hx.terminals a ha
        exact ⟨v ++ u, hv.append_right u⟩
      · obtain ⟨v, hv⟩ := ih.terminals a ha
        exact ⟨v, Derives.append (hx.nullable hnx) hv⟩

theorem confirmsTable_enlarge {t : FirstTable} (ht : g.ConfirmsTable t) {p : Production}
    (hp : p ∈ g.productions) : g.ConfirmsTable (t.enlarge p.head (t.firstOf p.body)) := by
  have hbody := (confirms_firstOf ht p.body).of_derives (derives_body hp)
  exact SetTable.forall_change (fun n s => g.Confirms [.nonterminal n] s) ht
    fun _ hs => hs.union hbody

theorem confirmsTable_firstTable (g : Grammar) : g.ConfirmsTable g.firstTable := by
  refine settle_invariant (fun t ht => ?_) _ ?_
  · exact List.foldlRecOn (motive := g.ConfirmsTable) g.productions _ ht
      fun _ ht _ hp => confirmsTable_enlarge ht hp
  · intro e he
    obtain ⟨n, _, rfl⟩ := List.mem_map.mp he
    exact confirms_empty g _

/-- the set holds exactly the terminals that can begin what the form derives, and is nullable
exactly if the form derives the empty sequence -/
structure IsFirst (g : Grammar) (u : List Symbol) (s : FirstSet) : Prop where
  nullable : s.nullable = true ↔ g.Derives u []
  terminals : ∀ a, a ∈ s.terminals ↔ ∃ v, g.Derives u (.terminal a :: v)

theorem isFirst_firstOf (hg : g.Valid) (u : List Symbol) :
    g.IsFirst u (g.firstTable.firstOf u) := by
  have hsound := confirms_firstOf (confirmsTable_firstTable g) u
  have hclosed := closed_firstTable hg
  refine ⟨⟨hsound.nullable, fun h => (hclosed.within_of_derives h).nullable rfl⟩,
    fun a => ⟨hsound.terminals a, ?_⟩⟩
  rintro ⟨v, hv⟩
  exact (hclosed.within_of_derives hv).terminals (List.mem_singleton.mpr rfl)

/-- **FIRST is exact** for every sequence and every nonterminal of a built grammar, be it left
recursive, unreachable or without any sentence. -/
theorem isFirst_of_build {d : Declaration} (hg : d.build = .ok g) :
    (∀ u, g.IsFirst u ((GrammarSets.ofGrammar g).firstOf u)) ∧
    ∀ n ∈ g.nonterminals, ∃ s, (GrammarSets.ofGrammar g).first.get? n = some s ∧
      g.IsFirst [.nonterminal n] s := by
  have hvalid := Declaration.valid_of_build hg
  refine ⟨fun u => isFirst_firstOf hvalid u, fun n hn => ?_⟩
  obtain ⟨s, hs⟩ := (shaped_firstTable hvalid).exists_get? hn
  have hfirst := isFirst_firstOf hvalid [.nonterminal n]
  rw [firstOf_nonterminal hs] at hfirst
  exact ⟨s, hs, hfirst⟩

/-- `S` is left recursive behind a part that vanishes, `U` is unreachable and has no sentence -/
def recursive : Declaration :=
  ⟨"S", ["S", "A", "U"], ["a", "b"],
    [("S", ["A", "S", "b"]), ("S", []), ("A", []), ("U", ["U", "a"])]⟩

def recursiveGrammar : Grammar :=
  ⟨"S", ["S", "A", "U"], ["a", "b"],
    [⟨"S", [.nonterminal "A", .nonterminal "S", .terminal "b"]⟩, ⟨"S", []⟩, ⟨"A", []⟩,
      ⟨"U", [.nonterminal "U", .terminal "a"]⟩]⟩

theorem first_recursiveGrammar :
    recursive.build = .ok recursiveGrammar ∧
      recursiveGrammar.Derives [.nonterminal "A", .nonterminal "S"] [] ∧
      (∃ v, recursiveGrammar.Derives [.nonterminal "S"] (.terminal "b" :: v)) ∧
      ¬ ∃ v, recursiveGrammar.Derives [.nonterminal "U"] (.terminal "a" :: v) := by
  obtain ⟨hsequence, hsingle⟩ := isFirst_of_build (d := recursive) (g := recursiveGrammar) rfl
  have hAS := hsequence [.nonterminal "A", .nonterminal "S"]
  have hU := hsequence [.nonterminal "U"]
  obtain ⟨s, hs, hS⟩ := hsingle "S" (by decide)
  have hb : s = ⟨["b"], true⟩ := Option.some.inj (hs.symm.trans (by decide))
  refine ⟨rfl, hAS.nullable.mp (by decide), (hS.terminals "b").mp (by simp [hb]), fun h => ?_⟩
  exact absurd ((hU.terminals "a").mpr h) (by decide)

end Grammar

end SpanishSyntax
