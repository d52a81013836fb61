import SpanishSyntax.Proofs.Grammar.Table

/-!
# Left recursion is found exactly

The table is refused on the strength of `Grammar.Leads`, a relation between single productions.
Here it is put against derivations of any length and in any order:

* `GrammarSets.mem_leading_iff`      the leading nonterminals of a form are those that stand at the
                                     front once a part before them is gone;
* `Grammar.exists_leading_of_derives`  whatever a form brings to its front is reached from one of
                                     its leading nonterminals;
* `Grammar.bringsToFront_iff`        one nonterminal derives another at the front, in one step or
                                     more, exactly if leading steps go from the one to the other;
* `Grammar.leftRecursive?_eq_some_iff`, `ParseTable.build_leftRecursive_iff`   so the nonterminal
                                     that is reported is the first left-recursive one.
-/

namespace SpanishSyntax

namespace GrammarSets

variable {s : GrammarSets}

theorem mem_leading_iff {u : List Symbol} {n : String} :
    n ∈ s.leading u ↔ ∃ left right, u = left ++ .nonterminal n :: right ∧
      (s.first.firstOf left).nullable = true := by
  constructor
  · intro h
    induction u with
    | nil => cases h
    | cons x u ih =>
      rcases mem_leading_append.mp (show n ∈ s.leading ([x] ++ u) from h) with hx | ⟨hx, hu⟩
      · obtain rfl := List.mem_singleton.mp (mem_of_mem_leading hx)
        exact ⟨[], u, rfl, rfl⟩
      · obtain ⟨left, right, rfl, hleft⟩ := ih hu
        exact ⟨x :: left, right, rfl, (FirstTable.nullable_firstOf_cons x left).mpr ⟨hx, hleft⟩⟩
  · rintro ⟨left, right, rfl, hleft⟩
    exact mem_leading_of_nullable hleft

end GrammarSets

namespace Grammar

variable {g : Grammar}

/-- `m` derives, in one step or more, a form that begins with `n` -/
def BringsToFront (g : Grammar) (m n : String) : Prop :=
  ∃ v, Relation.TransGen g.Produces [.nonterminal m] (.nonterminal n :: v)

/-- `n` derives, in one step or more, a form that begins with `n` again -/
def LeftRecursive (g : Grammar) (n : String) : Prop := g.BringsToFront n n

theorem BringsToFront.trans {k m n : String} (h : g.BringsToFront k m)
    (h' : g.BringsToFront m n) : g.BringsToFront k n := by
  obtain ⟨v, hv⟩ := h
  obtain ⟨v', hv'⟩ := h'
  have hlift : Relation.TransGen g.Produces ([.nonterminal m] ++ v) (.nonterminal n :: v' ++ v) :=
    hv'.lift (· ++ v) fun _ _ hp => hp.append_right v
  exact ⟨v' ++ v, hv.trans hlift⟩

/-! ## leading steps are derivations -/

theorem bringsToFront_of_leads (hg : g.Valid) {m n : String}
    (h : g.Leads (.ofGrammar g) m n) : g.BringsToFront m n := by
  obtain ⟨p, hp, rfl, hlead⟩ := leads_iff.mp h
  obtain ⟨left, right, hbody, hleft⟩ := GrammarSets.mem_leading_iff.mp hlead
  have hvanish : g.Derives left [] := (isFirst_firstOf hg left).nullable.mp hleft
  have hfront : g.Derives p.body (.nonterminal n :: right) := by
    rw [hbody]
    exact hvanish.append_right _
  exact ⟨right, .head' (produces_body hp) hfront⟩

/-! ## derivations are leading steps -/

/-- the induction is on the derivation, from its first step on; the step replaces a nonterminal that
leads the form, or stands behind what leads it -/
theorem exists_leading_of_derives (hg : g.Valid) {u v : List Symbol} {n : String}
    (h : g.Derives u (.nonterminal n :: v)) :
    ∃ m ∈ (GrammarSets.ofGrammar g).leading u,
      Relation.ReflTransGen (g.Leads (.ofGrammar g)) m n := by
  induction h using Relation.ReflTransGen.head_induction_on with
  | refl => exact ⟨n, List.mem_cons_self, .refl⟩
  | head hstep _ ih =>
    obtain ⟨m, hm, hreach⟩ := ih
    obtain @⟨p, hp, left, right⟩ := hstep
    rcases GrammarSets.mem_leading_append.mp hm with hm | ⟨hleft, hm⟩
    · exact ⟨m, GrammarSets.mem_leading_append.mpr (.inl hm), hreach⟩
    · rcases GrammarSets.mem_leading_append.mp hm with hm | ⟨hbody, hm⟩
      · have hlead : g.Leads (.ofGrammar g) p.head m := leads_iff.mpr ⟨p, hp, rfl, hm⟩
        exact ⟨p.head, GrammarSets.mem_leading_of_nullable hleft, .head hlead hreach⟩
      · -- the body can vanish, so the head can, and what leads behind it leads behind the head
        have hhead := (closed_firstTable hg p hp).nullable hbody
        have hright : m ∈ (GrammarSets.ofGrammar g).leading ([.nonterminal p.head] ++ right) :=
          GrammarSets.mem_leading_append.mpr (.inr ⟨hhead, hm⟩)
        exact ⟨m, GrammarSets.mem_leading_append.mpr (.inr ⟨hleft, hright⟩), hreach⟩

theorem bringsToFront_iff (hg : g.Valid) {m n : String} :
    g.BringsToFront m n ↔ Relation.TransGen (g.Leads (.ofGrammar g)) m n := by
  constructor
  · rintro ⟨v, hv⟩
    obtain ⟨u, hstep, hrest⟩ := Relation.TransGen.head'_iff.mp hv
    obtain ⟨p, hp, rfl, rfl⟩ := produces_nonterminal_iff.mp hstep
    obtain ⟨k, hk, hreach⟩ := exists_leading_of_derives hg hrest
    exact .head' (leads_iff.mpr ⟨p, hp, rfl, hk⟩) hreach
  · intro h
    induction h with
    | single h => exact bringsToFront_of_leads hg h
    | tail _ hlast ih => exact ih.trans (bringsToFront_of_leads hg hlast)

/-! ## what is reported -/

theorem LeftRecursive.mem_nonterminals (hg : g.Valid) {n : String} (h : g.LeftRecursive n) :
    n ∈ g.nonterminals := by
  obtain ⟨_, hv⟩ := h
  obtain ⟨_, hstep, _⟩ := Relation.TransGen.head'_iff.mp hv
  obtain ⟨p, hp, rfl, _⟩ := produces_nonterminal_iff.mp hstep
  exact hg.head_mem p hp

theorem mem_leadClosure_self_iff (hg : g.Valid) {n : String} :
    n ∈ g.leadClosure (.ofGrammar g) n ↔ g.LeftRecursive n :=
  (mem_leadClosure hg).trans (bringsToFront_iff hg).symm

/-- the nonterminal that is found is left recursive, and none declared before it is -/
theorem leftRecursive?_eq_some_iff (hg : g.Valid) {n : String} :
    g.leftRecursive? (.ofGrammar g) = some n ↔ g.LeftRecursive n ∧
      ∃ before after, g.nonterminals = before ++ n :: after ∧
        ∀ m ∈ before, ¬ g.LeftRecursive m := by
  unfold leftRecursive?
  rw [List.find?_eq_some_iff_append, decide_eq_true_eq, mem_leadClosure_self_iff hg]
  refine and_congr_right fun _ => exists₂_congr fun before _ => and_congr_right fun _ =>
    forall₂_congr fun m _ => ?_
  rw [Bool.not_eq_true', decide_eq_false_iff_not, mem_leadClosure_self_iff hg]

theorem leftRecursive?_eq_none_iff_derives (hg : g.Valid) :
    g.leftRecursive? (.ofGrammar g) = none ↔ ¬ ∃ n, g.LeftRecursive n := by
  rw [leftRecursive?_eq_none_iff hg, not_exists]
  refine ⟨fun h n hn => h n (hn.mem_nonterminals hg) ((bringsToFront_iff hg).mp hn),
    fun h n _ hn => h n ((bringsToFront_iff hg).mpr hn)⟩

end Grammar

namespace ParseTable

variable {g : Grammar}

/-- **Left recursion is refused, and nothing else is called so**: under either policy a table is
refused as left recursive exactly if some nonterminal derives itself at the front of a form, and
the one reported is the first of them in the order of declaration. -/
theorem build_leftRecursive_iff {d : Declaration} (hg : d.build = .ok g)
    (policy : ConflictPolicy) :
    ((∃ n, build g policy = .error (.leftRecursive n)) ↔
      ∃ n ∈ g.nonterminals, g.LeftRecursive n) ∧
    ∀ n, build g policy = .error (.leftRecursive n) ↔ g.LeftRecursive n ∧
      ∃ before after, g.nonterminals = before ++ n :: after ∧
        ∀ m ∈ before, ¬ g.LeftRecursive m := by
  have hvalid := Declaration.valid_of_build hg
  refine ⟨⟨?_, ?_⟩, fun n => build_eq_leftRecursive_iff.trans
    (Grammar.leftRecursive?_eq_some_iff hvalid)⟩
  · rintro ⟨n, hn⟩
    obtain ⟨hrec, _⟩ := (Grammar.leftRecursive?_eq_some_iff hvalid).mp
      (build_eq_leftRecursive_iff.mp hn)
    exact ⟨n, hrec.mem_nonterminals hvalid, hrec⟩
  · rintro ⟨n, _, hn⟩
    have hsome : g.leftRecursive? (.ofGrammar g) ≠ none := fun hnone =>
      (Grammar.leftRecursive?_eq_none_iff_derives hvalid).mp hnone ⟨n, hn⟩
    obtain ⟨m, hm⟩ := Option.ne_none_iff_exists'.mp hsome
    exact ⟨m, build_eq_leftRecursive_iff.mpr hm⟩

/-- `A` comes back to itself past an `E` that vanishes and through `B`; `S` reads first, though what
it derives is left recursive -/
def detour : Declaration :=
  ⟨"S", ["S", "A", "B", "E"], ["a", "b"],
    [("S", ["a", "A"]), ("A", ["E", "B"]), ("B", ["A", "b"]), ("B", ["a"]), ("E", [])]⟩

def detourGrammar : Grammar :=
  ⟨"S", ["S", "A", "B", "E"], ["a", "b"],
    [⟨"S", [.terminal "a", .nonterminal "A"]⟩, ⟨"A", [.nonterminal "E", .nonterminal "B"]⟩,
      ⟨"B", [.nonterminal "A", .terminal "b"]⟩, ⟨"B", [.terminal "a"]⟩, ⟨"E", []⟩]⟩

theorem refused_detour :
    detour.build = .ok detourGrammar ∧
      build detourGrammar .firstListed = .error (.leftRecursive "A") ∧
      detourGrammar.LeftRecursive "A" ∧ ¬ detourGrammar.LeftRecursive "S" := by
  have hbuild : detour.build = .ok detourGrammar := rfl
  obtain ⟨_, hfirst⟩ := build_leftRecursive_iff hbuild .firstListed
  have hrefused : build detourGrammar .firstListed = .error (.leftRecursive "A") :=
    build_eq_leftRecursive_iff.mpr (by decide)
  obtain ⟨hA, before, after, hsplit, hbefore⟩ := (hfirst "A").mp hrefused
  have hS : "S" ∈ before := by
    cases before with
    | nil => simp [detourGrammar] at hsplit
    | cons m before => exact (List.cons.inj hsplit).1 ▸ List.mem_cons_self
  exact ⟨hbuild, hrefused, hA, hbefore "S" hS⟩

end ParseTable

end SpanishSyntax
