import SpanishSyntax.Proofs.Grammar.FollowExact
import SpanishSyntax.Proofs.Parse.Earliest

/-!
# How a run ends once the input is read

At the end of the input the parser only expands, and it expands by productions that vanish: a
cell for `$` holds none whose body does not derive the empty sequence.  So whether the form that is
left derives the empty sequence stays the same up to the halt.  A form that does is never stuck on
its way: behind the nonterminal on top stands nothing but what vanishes, hence FOLLOW of it has
`$`, and its cell for `$` has the production by which it vanishes.  Conflicts in these cells do no
harm, since every candidate vanishes.

* `Grammar.allVanish_iff`          a form derives the empty sequence if each of its symbols does;
* `ParseTable.Built.vanishes_of_predict`, `ParseTable.Built.exists_predict_of_vanishing`   the cells
                                   for `$`;
* `Machine.Path.vanishes_iff`      what a run without tokens keeps;
* `Machine.Halt.error_of_rest_nil`  and what it means for the halt;
* `ParseTable.ends_at_end_of_input`   the end of a run from any state without tokens on.
-/

namespace SpanishSyntax

namespace Grammar

variable {g : Grammar}

theorem vanishes_append_iff (hg : g.Valid) {u v : List Symbol} :
    g.Derives (u ++ v) [] ↔ g.Derives u [] ∧ g.Derives v [] := by
  rw [← (isFirst_firstOf hg (u ++ v)).nullable, ← (isFirst_firstOf hg u).nullable,
    ← (isFirst_firstOf hg v).nullable]
  exact FirstTable.nullable_firstOf_append u v

theorem vanishes_cons_iff (hg : g.Valid) {x : Symbol} {u : List Symbol} :
    g.Derives (x :: u) [] ↔ g.Derives [x] [] ∧ g.Derives u [] :=
  vanishes_append_iff hg (u := [x])

theorem not_vanishes_terminal (hg : g.Valid) (a : String) : ¬ g.Derives [.terminal a] [] := by
  intro h
  cases (isFirst_firstOf hg [.terminal a]).nullable.mpr h

/-- every symbol is a nonterminal that derives the empty sequence -/
def AllVanish (g : Grammar) (u : List Symbol) : Prop :=
  ∀ x ∈ u, ∃ n, x = .nonterminal n ∧ g.Derives [.nonterminal n] []

theorem allVanish_iff (hg : g.Valid) {u : List Symbol} : g.AllVanish u ↔ g.Derives u [] := by
  induction u with
  | nil => exact ⟨fun _ => .refl, fun _ _ hx => (nomatch hx)⟩
  | cons x u ih =>
    unfold AllVanish at ih ⊢
    rw [vanishes_cons_iff hg, ← ih, List.forall_mem_cons]
    refine and_congr_left fun _ => ⟨?_, fun hx => ?_⟩
    · rintro ⟨n, rfl, hn⟩
      exact hn
    · cases x with
      | terminal a => exact absurd hx (not_vanishes_terminal hg a)
      | nonterminal n => exact ⟨n, rfl, hx⟩

/-- a nonterminal vanishes by a body of it that does -/
theorem exists_body_of_vanishing {n : String} (h : g.Derives [.nonterminal n] []) :
    ∃ p ∈ g.productions, p.head = n ∧ g.Derives p.body [] := by
  rcases Relation.ReflTransGen.cases_head h with heq | ⟨u, hstep, hrest⟩
  · cases heq
  · obtain ⟨p, hp, hhead, rfl⟩ := produces_nonterminal_iff.mp hstep
    exact ⟨p, hp, hhead, hrest⟩

end Grammar

namespace ParseTable

variable {g : Grammar} {t : ParseTable}

theorem Built.isNullable_iff (hb : t.Built g) {n : String} :
    t.sets.isNullable n = true ↔ g.Derives [.nonterminal n] [] := by
  rw [← GrammarSets.nullable_firstOf_nonterminal, hb.sets]
  exact (Grammar.isFirst_firstOf hb.valid [.nonterminal n]).nullable

theorem Built.vanishes_of_predict (hb : t.Built g) {n : String} {p : Production}
    (hp : t.predict n .endOfInput = some p) : g.Derives p.body [] := by
  obtain ⟨_, _, hsel⟩ := hb.predicted hp
  rw [hb.sets] at hsel
  rcases FollowTable.mem_after.mp (GrammarSets.mem_selectors.mp hsel) with ⟨b, _, hb⟩ | ⟨hnull, _⟩
  · cases hb
  · exact (Grammar.isFirst_firstOf hb.valid p.body).nullable.mp hnull

/-- the cell for `$` of a nonterminal that can vanish is filled, if it can stand last -/
theorem Built.exists_predict_of_vanishing (hb : t.Built g) {n : String}
    (hlast : g.StandsBehind n .endOfInput) (hn : g.Derives [.nonterminal n] []) :
    ∃ p, t.predict n .endOfInput = some p := by
  obtain ⟨p, hp, rfl, hbody⟩ := Grammar.exists_body_of_vanishing hn
  refine exists_predict_of_mem ((hb.candidates p.head .endOfInput p).mpr ⟨hp, rfl, ?_⟩)
  rw [hb.sets]
  exact GrammarSets.mem_selectors.mpr (FollowTable.mem_after.mpr (.inr
    ⟨(Grammar.isFirst_firstOf hb.valid p.body).nullable.mpr hbody,
      (Grammar.mem_followTable_iff hb.valid).mpr hlast⟩))

end ParseTable

namespace Parse.Machine

variable {g : Grammar} {t : ParseTable}

theorem Move.vanishes_iff (hb : t.Built g) {m m' : Machine} {a : Action} (hm : Move t m a m')
    (hrest : m.rest = []) : g.Derives m.form [] ↔ g.Derives m'.form [] := by
  cases hm with
  | read => cases hrest
  | @expand n opened below position rest p hp _ =>
    obtain rfl : rest = [] := hrest
    obtain ⟨hmem, rfl, _⟩ := hb.predicted hp
    have hbody := hb.vanishes_of_predict hp
    have hhead : g.Derives [.nonterminal p.head] [] := (Grammar.derives_body hmem).trans hbody
    rw [form_expansion, Grammar.vanishes_append_iff hb.valid]
    show g.Derives (.nonterminal p.head :: below.map (·.symbol)) [] ↔ _
    rw [Grammar.vanishes_cons_iff hb.valid]
    simp only [hhead, hbody]

theorem Path.vanishes_iff (hb : t.Built g) {m m' : Machine} {steps : List TraceStep}
    (h : Path t m steps m') (hrest : m.rest = []) :
    g.Derives m.form [] ↔ g.Derives m'.form [] := by
  induction h with
  | nil => rfl
  | cons hm _ ih =>
    rw [hm.vanishes_iff hb hrest]
    refine ih ?_
    cases hm with
    | read => cases hrest
    | expand => exact hrest

/-- a halt without tokens left; a form that vanishes can only be the empty one there, since the
nonterminal on top of any other has a prediction -/
theorem Halt.error_of_rest_nil (hb : t.Built g) {m : Machine} {e : Option Rejection}
    (h : Halt t m e) (hg : Guarded g t m) (hrest : m.rest = []) {u : List Symbol}
    (hu : g.Derives [.nonterminal g.start] (u ++ m.form)) :
    (g.Derives m.form [] → e = none) ∧
      (¬ g.Derives m.form [] → e = some (.incompleteDerivation m.position)) := by
  cases h with
  | done => exact ⟨fun _ => rfl, fun hv => absurd .refl hv⟩
  | unread => cases hrest
  | exhausted =>
    refine ⟨fun hv => ?_, fun _ => rfl⟩
    exact absurd ((Grammar.vanishes_cons_iff hb.valid).mp hv).1
      (Grammar.not_vanishes_terminal hb.valid _)
  | mismatch => cases hrest
  | @unpredicted m n opened below hs hp =>
    rw [hrest] at hp
    have hform : m.form = .nonterminal n :: below.map (·.symbol) := by rw [form, hs]; rfl
    refine ⟨fun hv => ?_, fun _ => ?_⟩
    · rw [hform, Grammar.vanishes_cons_iff hb.valid] at hv
      obtain ⟨hn, hbelow⟩ := hv
      rw [hform] at hu
      have hlast : g.StandsBehind n .endOfInput :=
        ⟨u, hu.trans (Grammar.derives_left_of_vanishing hbelow)⟩
      obtain ⟨p, hpred⟩ := hb.exists_predict_of_vanishing hlast hn
      cases hpred.symm.trans hp
    · rw [noPrediction, hrest]
  | looping hp ho => exact absurd ho (hg.not_open hb rfl hp)

end Parse.Machine

namespace Parse

/-- the outcome has this error, or none, and the last action of its trace says so -/
def Outcome.EndsWith (o : Outcome) (e : Option Rejection) : Prop :=
  o.error = e ∧ o.steps.getLast?.map (·.action) = some (Machine.ending e)

theorem Outcome.EndsWith.unique {o : Outcome} {e e' : Option Rejection} (h : o.EndsWith e)
    (h' : o.EndsWith e') : e = e' := h.1.symm.trans h'.1

end Parse

namespace ParseTable

open Parse Machine

variable {g : Grammar} {t : ParseTable} {w : List String}

theorem Course.endsWith {steps : List TraceStep} {m : Machine} (h : t.Course g w steps m) :
    (t.parse w).EndsWith (t.parse w).error :=
  ⟨rfl, by rw [h.getLast?_steps]; rfl⟩

theorem Course.error_of_rest_nil (hb : t.Built g) {steps : List TraceStep} {m : Machine}
    (h : t.Course g w steps m) (hrest : m.rest = []) :
    (g.Derives m.form [] → (t.parse w).error = none) ∧
      (¬ g.Derives m.form [] → (t.parse w).error = some (.incompleteDerivation w.length)) := by
  have hlength : m.position = w.length := by
    rw [h.position_eq, h.tokens_eq, hrest, List.append_nil]
  rw [← hlength]
  exact h.halt.error_of_rest_nil hb h.guarded hrest (h.derives_read hb)

theorem endsWith_of_reaches (hb : t.Built g) {m : Machine}
    (hreach : Reaches t (initial g.start w) m) (hrest : m.rest = []) :
    ((t.parse w).EndsWith none ↔ g.Derives m.form []) ∧
      ((t.parse w).EndsWith (some (.incompleteDerivation w.length)) ↔ ¬ g.Derives m.form []) := by
  obtain ⟨steps, hpath⟩ := exists_path_of_reaches hreach
  obtain ⟨steps', m', e, hpath', he⟩ := exists_path t m
  have hcourse := course_of_path hb (hpath.append hpath') he
  have hrest' : m'.rest = [] := (List.append_eq_nil_iff.mp (hpath'.rest_eq.symm.trans hrest)).2
  obtain ⟨haccept, hreject⟩ := hcourse.error_of_rest_nil hb hrest'
  have hend := hcourse.endsWith
  rw [hpath'.vanishes_iff hb hrest]
  by_cases hv : g.Derives m'.form []
  · rw [haccept hv] at hend
    exact ⟨iff_of_true hend hv, iff_of_false (fun h => nomatch hend.unique h) (not_not.mpr hv)⟩
  · rw [hreject hv] at hend
    exact ⟨iff_of_false (fun h => nomatch hend.unique h) hv, iff_of_true hend hv⟩

/-- **How a run ends at the end of the input**, under either policy and with or without conflicts:
from any state without tokens on it accepts if every symbol of the form left there vanishes, and
else reports an incomplete derivation behind the last token.  The empty sequence is such a run from
its first state on, and the symbols that vanish are those marked nullable. -/
theorem ends_at_end_of_input {d : Declaration} {policy : ConflictPolicy} (hg : d.build = .ok g)
    (ht : build g policy = .ok t) :
    (∀ w m, Reaches t (initial g.start w) m → m.rest = [] →
      ((t.parse w).EndsWith none ↔ g.AllVanish m.form) ∧
      ((t.parse w).EndsWith (some (.incompleteDerivation w.length)) ↔ ¬ g.AllVanish m.form)) ∧
    ((t.parse []).EndsWith none ↔ t.sets.isNullable g.start = true) ∧
    ((t.parse []).EndsWith (some (.incompleteDerivation 0)) ↔ ¬ t.sets.isNullable g.start = true) ∧
    ∀ n, t.sets.isNullable n = true ↔ g.Derives [.nonterminal n] [] := by
  have hb := built_of_build hg ht
  obtain ⟨haccept, hreject⟩ := endsWith_of_reaches hb (w := []) .refl rfl
  rw [show (initial g.start []).form = [.nonterminal g.start] from rfl, ← hb.isNullable_iff]
    at haccept hreject
  refine ⟨fun w m hreach hrest => ?_, haccept, hreject, fun n => hb.isNullable_iff⟩
  rw [Grammar.allVanish_iff hb.valid]
  exact endsWith_of_reaches hb hreach hrest

/-- in `vanishing` the cell of `A` for `$` has two candidates, and the empty sequence is accepted;
in `nounPhrase` an article alone still lacks its noun -/
theorem ends_vanishing_nounPhrase :
    vanishing.build = .ok vanishingGrammar ∧
      build vanishingGrammar .firstListed = .ok vanishingTable ∧
      (vanishingTable.candidates "A" .endOfInput).length = 2 ∧
      (vanishingTable.parse []).EndsWith none ∧
      nounPhrase.build = .ok nounPhraseGrammar ∧
      build nounPhraseGrammar .reject = .ok nounPhraseTable ∧
      Reaches nounPhraseTable (initial "SN" ["art"])
        ⟨[⟨.terminal "sust", []⟩, ⟨.nonterminal "Adjs", []⟩], 1, []⟩ ∧
      (nounPhraseTable.parse ["art"]).EndsWith (some (.incompleteDerivation 1)) := by
  have hvanish := ends_at_end_of_input (d := vanishing) rfl build_vanishingGrammar
  obtain ⟨hruns, _⟩ := ends_at_end_of_input (d := nounPhrase) rfl build_nounPhraseGrammar
  have hreach : Reaches nounPhraseTable (initial "SN" ["art"])
      ⟨[⟨.terminal "sust", []⟩, ⟨.nonterminal "Adjs", []⟩], 1, []⟩ := by
    refine .head ⟨_, step_of_move (.expand (p := ⟨"SN", [.nonterminal "Det", .terminal "sust",
      .nonterminal "Adjs"]⟩) (by decide) (by decide))⟩ ?_
    refine .head ⟨_, step_of_move (.expand (p := ⟨"Det", [.terminal "art"]⟩) (by decide)
      (by decide))⟩ ?_
    exact .single ⟨_, step_of_move .read⟩
  have hstuck : ¬ nounPhraseGrammar.AllVanish [.terminal "sust", .nonterminal "Adjs"] := by
    intro h
    obtain ⟨n, hn, _⟩ := h (.terminal "sust") List.mem_cons_self
    cases hn
  exact ⟨rfl, build_vanishingGrammar, by decide, hvanish.2.1.mpr (by decide), rfl,
    build_nounPhraseGrammar, hreach, (hruns _ _ hreach rfl).2.mpr hstuck⟩

end ParseTable

end SpanishSyntax
