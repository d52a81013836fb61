import Mathlib.Data.List.Chain
import SpanishSyntax.Proofs.Parse.Path
import SpanishSyntax.Proofs.Parse.StackRun

/-!
# A trace records a run of the stack machine

An entry of a trace shows the stack and the unread tokens after its action.  `Parse.Follows` says
which entry may come after which, in terms of the entries alone, and `Parse.Explains` says what an
error claims of the last entry.  `Outcome.Records` puts together what holds of the one outcome in
which the loop ends (`ParseTable.records_of_build`).  The loop pops a frame before it can fail, so
that the last entry shows the true top of the stack is a fact about what it puts back
(`StackRun.turn_cases`).
-/

namespace SpanishSyntax.Parse

def Action.moves : Action → Bool
  | .expand _ _ => true
  | .matched _ => true
  | _ => false

inductive Follows (g : Grammar) (t : ParseTable) : TraceStep → TraceStep → Prop where
  | expand {below rest : List String} {a : Action} {p : Production} (hp : p ∈ g.productions)
      (hpredict : t.predict p.head (Lookahead.ofRest rest) = some p) :
      Follows g t ⟨below ++ [p.head], rest, a⟩
        ⟨below ++ (p.body.map Symbol.name).reverse, rest, .expand p.head p.body⟩
  | matched {below rest : List String} {a : Action} {b : String} (hb : b ∈ g.terminals) :
      Follows g t ⟨below ++ [b], b :: rest, a⟩ ⟨below, rest, .matched b⟩
  | accept {stack rest : List String} {a : Action} :
      Follows g t ⟨stack, rest, a⟩ ⟨stack, rest, .accept⟩
  | reject {stack rest : List String} {a : Action} {e : Rejection} :
      Follows g t ⟨stack, rest, a⟩ ⟨stack, rest, .reject e⟩

/-- the error names the top of the stack and the lookahead, and no move was possible -/
inductive Explains (g : Grammar) (t : ParseTable) (s : TraceStep) (position : Nat) :
    Rejection → Prop where
  | terminalMismatch {a b : String} (ha : a ∈ g.terminals) (htop : s.stack.getLast? = some a)
      (hnext : s.remaining.head? = some b) (hne : a ≠ b) :
      Explains g t s position (.terminalMismatch a b position)
  | noProduction {n b : String} (hn : n ∈ g.nonterminals) (htop : s.stack.getLast? = some n)
      (hnext : s.remaining.head? = some b) (hp : t.predict n (.terminal b) = none) :
      Explains g t s position (.noProduction n b position)
  | unread (htop : s.stack = []) (hnext : s.remaining ≠ []) :
      Explains g t s position (.incompleteDerivation position)
  | unmatched {a : String} (ha : a ∈ g.terminals) (htop : s.stack.getLast? = some a)
      (hnext : s.remaining = []) : Explains g t s position (.incompleteDerivation position)
  | unpredicted {n : String} (hn : n ∈ g.nonterminals) (htop : s.stack.getLast? = some n)
      (hnext : s.remaining = []) (hp : t.predict n .endOfInput = none) :
      Explains g t s position (.incompleteDerivation position)

/-- the outcome for the tokens `w`, with `moves` between the first and the last entry -/
structure Outcome.Records (g : Grammar) (t : ParseTable) (w : List String) (o : Outcome)
    (moves : List TraceStep) (last : TraceStep) : Prop where
  steps : o.steps = ⟨[g.start], w, .start⟩ :: (moves ++ [last])
  moving : ∀ s ∈ moves, s.action.moves = true
  chain : o.steps.IsChain (Follows g t)
  ending : last.action = match o.error with | none => .accept | some e => .reject e
  accept_iff : last.action = .accept ↔ last.stack = [] ∧ last.remaining = []
  accepted : o.accepted = o.error.isNone
  consumed : o.consumed = (tokensRead o.steps).length
  read : tokensRead o.steps = w.take o.consumed
  unread : last.remaining = w.drop o.consumed
  reason : ∀ e, o.error = some e → Explains g t last o.consumed e

namespace Machine

variable {g : Grammar} {t : ParseTable}

/-! ## one entry after another -/

def Declared (g : Grammar) (m : Machine) : Prop := ∀ x ∈ m.form, g.Declares x

theorem Declared.top {m : Machine} (h : Declared g m) {x : Symbol} {opened : List String}
    {below : List Frame} (hs : m.stack = ⟨x, opened⟩ :: below) : g.Declares x := by
  refine h x ?_
  rw [form, hs]
  exact List.mem_cons_self

theorem Declared.of_move (hb : t.Built g) {m m' : Machine} {a : Action} (hm : Move t m a m')
    (h : Declared g m) : Declared g m' := by
  unfold Declared at h ⊢
  cases hm with
  | read =>
    rw [form_read] at h
    exact (List.forall_mem_cons.mp h).2
  | expand hp _ =>
    obtain ⟨hmem, _⟩ := hb.predicted hp
    rw [form_expansion]
    intro x hx
    rcases List.mem_append.mp hx with hx | hx
    · exact hb.valid.declares_body _ hmem x hx
    · exact h x (List.mem_cons_of_mem _ hx)

theorem follows_of_move (hb : t.Built g) {m m' : Machine} {a : Action} (hm : Move t m a m')
    (h : Declared g m) (b : Action) : Follows g t (m.entry b) (m'.entry a) := by
  rw [entry_eq, entry_eq]
  cases hm with
  | @read a opened below position rest =>
    have ha : g.Declares (.terminal a) := h.top rfl
    rw [form_read, List.map_cons, List.reverse_cons]
    exact .matched ha
  | @expand n opened below position rest p hp _ =>
    obtain ⟨hmem, rfl, _⟩ := hb.predicted hp
    rw [form_expansion, List.map_append, List.reverse_append]
    show Follows g t ⟨(p.head :: (below.map (·.symbol)).map Symbol.name).reverse, rest, b⟩ _
    rw [List.reverse_cons]
    exact .expand hmem hp

theorem follows_ending (m : Machine) (b : Action) (e : Option Rejection) :
    Follows g t (m.entry b) (m.entry (Machine.ending e)) := by
  cases e with
  | none => exact .accept
  | some e => exact .reject

theorem Path.isChain (hb : t.Built g) {m m' : Machine} {steps : List TraceStep}
    (h : Path t m steps m') (hm : Declared g m) (b : Action) (e : Option Rejection) :
    (m.entry b :: (steps ++ [m'.entry (Machine.ending e)])).IsChain (Follows g t) := by
  induction h generalizing b with
  | nil m => exact .cons_cons (follows_ending m b e) (.singleton _)
  | cons hmove _ ih =>
    exact .cons_cons (follows_of_move hb hmove hm b) (ih (hm.of_move hb hmove) _)

theorem Path.declared (hb : t.Built g) {m m' : Machine} {steps : List TraceStep}
    (h : Path t m steps m') (hm : Declared g m) : Declared g m' := by
  induction h with
  | nil => exact hm
  | cons hmove _ ih => exact ih (hm.of_move hb hmove)

theorem Path.moves {m m' : Machine} {steps : List TraceStep} (h : Path t m steps m') :
    ∀ s ∈ steps, s.action.moves = true := by
  induction h with
  | nil => exact fun _ hs => nomatch hs
  | cons hmove _ ih =>
    refine List.forall_mem_cons.mpr ⟨?_, ih⟩
    cases hmove with
    | read => rfl
    | expand => rfl

/-! ## the last entry -/

theorem ending_eq_accept_iff {m : Machine} {e : Option Rejection} :
    (m.entry (ending e)).action = .accept ↔ e = none := by
  cases e <;> simp [entry, ending]

theorem stack_entry_eq_nil_iff {m : Machine} {a : Action} :
    (m.entry a).stack = [] ↔ m.stack = [] := by
  simp [entry]

theorem getLast?_stack_entry {m : Machine} {x : Symbol} {opened : List String}
    {below : List Frame} (hs : m.stack = ⟨x, opened⟩ :: below) (a : Action) :
    (m.entry a).stack.getLast? = some x.name := by
  simp [entry, hs]

theorem Halt.explains (hb : t.Built g) {m : Machine} {e : Rejection} (h : Halt t m (some e))
    (hm : Declared g m) (hguard : Guarded g t m) (a : Action) :
    Explains g t (m.entry a) m.position e := by
  cases h with
  | unread => exact .unread rfl (List.cons_ne_nil _ _)
  | @exhausted b =>
    have htop : g.Declares (.terminal b) := hm.top rfl
    exact .unmatched htop (getLast?_stack_entry (x := .terminal b) rfl a) rfl
  | @mismatch b _ _ _ _ _ hne =>
    have htop : g.Declares (.terminal b) := hm.top rfl
    exact .terminalMismatch htop (getLast?_stack_entry (x := .terminal b) rfl a) rfl hne
  | @unpredicted _ n opened below hs hp =>
    have htop : g.Declares (.nonterminal n) := hm.top hs
    have hlast := getLast?_stack_entry hs a
    obtain ⟨stack, position, rest⟩ := m
    cases rest with
    | nil => exact .unpredicted htop hlast rfl hp
    | cons b rest => exact .noProduction htop hlast rfl hp
  | looping hp ho => exact absurd ho (hguard.not_open hb rfl hp)

end Machine

end SpanishSyntax.Parse

namespace SpanishSyntax.ParseTable

open Parse Machine

variable {g : Grammar} {t : ParseTable}

/-- **A trace is a faithful run of the stack machine**: the loop that pops and pushes ends in one
outcome, whose trace begins with `start`, goes on with expansions and matches, each of which does
to the entry before it what it says, and ends with `accept` or with an error that is so in the
last entry. -/
theorem records_of_build {d : Declaration} {policy : ConflictPolicy} (hg : d.build = .ok g)
    (ht : build g policy = .ok t) (w : List String) :
    ∃ o moves last, (∀ o', t.LoopEnds w o' ↔ o' = o) ∧ t.parse w = o ∧
      o.Records g t w moves last := by
  have hb := built_of_build hg ht
  obtain ⟨steps, m, h⟩ := exists_course hb w
  have hstart : Declared g (initial g.start w) :=
    List.forall_mem_singleton.mpr hb.valid.start_mem
  have hm := h.path.declared hb hstart
  have hread := h.tokensRead_steps
  have hconsumed : (t.parse w).consumed = (tokensRead steps).length :=
    h.consumed.trans h.position_eq
  refine ⟨t.parse w, steps, m.entry (ending (t.parse w).error), t.loopEnds_iff w, rfl, ?_⟩
  exact {
    steps := h.parse
    moving := h.path.moves
    chain := h.parse ▸ h.path.isChain hb hstart .start _
    ending := by cases (t.parse w).error <;> rfl
    accept_iff := by
      rw [stack_entry_eq_nil_iff, ending_eq_accept_iff]
      exact h.halt.error_eq_none_iff
    accepted := rfl
    consumed := by rw [hread, hconsumed]
    read := hread.trans h.take_consumed.symm
    unread := by
      rw [hconsumed, h.tokens_eq, List.drop_left]
      rfl
    reason := fun e he => by
      have hhalt := h.halt
      rw [he] at hhalt
      rw [h.consumed]
      exact hhalt.explains hb hm h.guarded _ }

theorem records_vanishing :
    vanishing.build = .ok vanishingGrammar ∧
      build vanishingGrammar .firstListed = .ok vanishingTable ∧
      ∃ o moves last, vanishingTable.LoopEnds ["a", "a"] o ∧
        o.Records vanishingGrammar vanishingTable ["a", "a"] moves last ∧ moves.length = 4 ∧
        last.stack = [] ∧ last.remaining = ["a"] ∧
        last.action = .reject (.incompleteDerivation 1) := by
  obtain ⟨_, moves, last, hends, rfl, h⟩ := records_of_build (d := vanishing)
    (g := vanishingGrammar) rfl build_vanishingGrammar ["a", "a"]
  have hparse := parse_of_runWithin (t := vanishingTable) (n := 5) (w := ["a", "a"])
    (o := ⟨[⟨["a", "A", "A"], ["a", "a"],
          .expand "S" [.nonterminal "A", .nonterminal "A", .terminal "a"]⟩,
        ⟨["a", "A"], ["a", "a"], .expand "A" []⟩, ⟨["a"], ["a", "a"], .expand "A" []⟩,
        ⟨[], ["a"], .matched "a"⟩, ⟨[], ["a"], .reject (.incompleteDerivation 1)⟩],
      some (.incompleteDerivation 1), 1⟩) (by decide)
  have hlast : (vanishingTable.parse ["a", "a"]).steps.getLast? = some last := by
    rw [h.steps, ← List.cons_append]
    exact List.getLast?_concat
  have hlength := congrArg List.length h.steps
  rw [hparse] at hlast hlength
  obtain rfl := Option.some.inj hlast
  rw [List.length_cons, List.length_append] at hlength
  have hmoves : moves.length = 4 := Nat.add_right_cancel (Nat.succ.inj hlength).symm
  exact ⟨rfl, build_vanishingGrammar, _, moves, _, (hends _).mpr rfl, h, hmoves, rfl, rfl, rfl⟩

end SpanishSyntax.ParseTable
