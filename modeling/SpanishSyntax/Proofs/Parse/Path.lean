import SpanishSyntax.Proofs.Parse.Acceptance

/-!
# Runs as recorded paths

`Machine.Path t m steps m'` says that moves lead from `m` to `m'` and that the trace shows them
as `steps`.  A run is a path with a halt at its end (`Machine.exists_path`, `Machine.run_of_path`),
and what a trace says of a run is proved by induction on the path.

* `Path.rest_eq`, `Path.position_eq`   the tokens that a path reads come off the front;
* `Path.leftmost`        its expansions are a leftmost derivation, up to the form that is left;
* `Path.of_lookahead`    it depends on the tokens that it reads and the lookahead behind them,
                         and on nothing further on;
* `ParseTable.Course`    a parse with its path and its halt (`ParseTable.exists_course`), from
                         which the statements on traces and trees start.
-/

namespace SpanishSyntax

namespace Lookahead

/-- tokens in front hide what is behind them -/
theorem ofRest_append (read : List String) {rest rest' : List String}
    (h : ofRest rest = ofRest rest') : ofRest (read ++ rest) = ofRest (read ++ rest') := by
  cases read with
  | nil => exact h
  | cons a read => rfl

end Lookahead

namespace Parse

def Action.matched? : Action → Option String
  | .matched a => some a
  | _ => none

/-- the tokens that a trace shows as matched, in order -/
def tokensRead (steps : List TraceStep) : List String :=
  steps.filterMap fun s => s.action.matched?

namespace Machine

variable {g : Grammar} {t : ParseTable}

/-- a trace shows the names of the form, and the tokens still unread -/
theorem entry_eq (m : Machine) (a : Action) :
    m.entry a = ⟨(m.form.map Symbol.name).reverse, m.rest, a⟩ := by
  simp [entry, form, Function.comp_def]

inductive Path (t : ParseTable) : Machine → List TraceStep → Machine → Prop where
  | nil (m : Machine) : Path t m [] m
  | cons {m m' m'' : Machine} {a : Action} {steps : List TraceStep} (hm : Move t m a m')
      (h : Path t m' steps m'') : Path t m (m'.entry a :: steps) m''

theorem exists_path (t : ParseTable) (m : Machine) :
    ∃ steps m' e, Path t m steps m' ∧ Halt t m' e := by
  induction m using run_induction (t := t) with
  | halt m e h => exact ⟨[], m, e, .nil m, h⟩
  | move m a m' hm ih =>
    obtain ⟨steps, m'', e, hpath, he⟩ := ih
    exact ⟨_, m'', e, .cons hm hpath, he⟩

theorem Path.append {m m' m'' : Machine} {steps steps' : List TraceStep} (h : Path t m steps m')
    (h' : Path t m' steps' m'') : Path t m (steps ++ steps') m'' := by
  induction h with
  | nil => exact h'
  | cons hm _ ih => exact .cons hm (ih h')

theorem exists_path_of_reaches {m m' : Machine} (h : Reaches t m m') :
    ∃ steps, Path t m steps m' := by
  induction h using Relation.ReflTransGen.head_induction_on with
  | refl => exact ⟨[], .nil m'⟩
  | head hstep _ ih =>
    obtain ⟨a, ha⟩ := hstep
    obtain ⟨steps, hpath⟩ := ih
    exact ⟨_, .cons (step_eq_next_iff.mp ha) hpath⟩

/-- the path to a halt is the run -/
theorem run_of_path {m m' : Machine} {steps : List TraceStep} {e : Option Rejection}
    (h : Path t m steps m') (he : Halt t m' e) :
    m.run t = ⟨steps ++ [m'.entry (ending e)], e, m'.position⟩ := by
  induction h with
  | nil m => exact run_of_halt he
  | cons hm _ ih =>
    rw [run_of_move hm, ih he]
    rfl

/-- the run, if it ends within `n` steps: a form of it that can be computed in a proof -/
def runWithin (t : ParseTable) : Nat → Machine → Option Outcome
  | 0, _ => none
  | n + 1, m =>
    match m.step t with
    | .halt e => some ⟨[m.entry (ending e)], e, m.position⟩
    | .next a m' => (runWithin t n m').map (Outcome.cons (m'.entry a))

theorem run_of_runWithin {n : Nat} {m : Machine} {o : Outcome} (h : runWithin t n m = some o) :
    m.run t = o := by
  induction n generalizing m o with
  | zero => cases h
  | succ n ih =>
    unfold runWithin at h
    split at h
    · rename_i e he
      rw [run_of_halt (step_eq_halt_iff.mp he)]
      exact Option.some.inj h
    · rename_i a m' hm
      obtain ⟨o', ho', rfl⟩ := Option.map_eq_some_iff.mp h
      rw [run_of_move (step_eq_next_iff.mp hm), ih ho']

theorem Path.guarded (hb : t.Built g) {m m' : Machine} {steps : List TraceStep}
    (h : Path t m steps m') (hm : Guarded g t m) : Guarded g t m' := by
  induction h with
  | nil => exact hm
  | cons hmove _ ih => exact ih (hm.of_move hb hmove)

/-! ## tokens -/

theorem Path.rest_eq {m m' : Machine} {steps : List TraceStep} (h : Path t m steps m') :
    m.rest = tokensRead steps ++ m'.rest := by
  induction h with
  | nil => rfl
  | cons hm _ ih =>
    cases hm with
    | @read a _ _ _ rest => exact congrArg (List.cons a) ih
    | expand => exact ih

theorem Path.position_eq {m m' : Machine} {steps : List TraceStep} (h : Path t m steps m') :
    m'.position = m.position + (tokensRead steps).length := by
  induction h with
  | nil => rfl
  | @cons m m' m'' a steps hm _ ih =>
    cases hm with
    | @read a _ _ position rest =>
      have hpos : m''.position = position + 1 + (tokensRead steps).length := ih
      show m''.position = position + ((tokensRead steps).length + 1)
      omega
    | expand => exact ih

/-! ## expansions -/

theorem Path.leftmost (hb : t.Built g) {m m' : Machine} {steps : List TraceStep}
    (h : Path t m steps m') :
    ∃ ps, expansions steps = ps.map shown ∧
      g.LeftmostDerivation m.form ps ((tokensRead steps).map .terminal ++ m'.form) := by
  induction h with
  | nil m => exact ⟨[], rfl, .refl _⟩
  | cons hm _ ih =>
    obtain ⟨ps, hps, hleft⟩ := ih
    cases hm with
    | @read a opened below position rest =>
      rw [form_read]
      exact ⟨ps, hps, hleft.cons_terminal a⟩
    | @expand n opened below position rest p hp _ =>
      obtain ⟨hmem, rfl, _⟩ := hb.predicted hp
      rw [form_expansion] at hleft
      exact ⟨p :: ps, congrArg (List.cons (shown p)) hps, hleft.expand hmem⟩

/-! ## what a path depends on -/

/-- the same state before other tokens -/
def withRest (m : Machine) (rest : List String) : Machine := ⟨m.stack, m.position, rest⟩

theorem Halt.of_lookahead {m : Machine} {e : Option Rejection} (h : Halt t m e)
    {rest : List String} (hla : Lookahead.ofRest rest = Lookahead.ofRest m.rest) :
    Halt t (m.withRest rest) e := by
  obtain ⟨stack, position, rest'⟩ := m
  -- only the first token of the rest is ever looked at
  have hrest : rest = [] ∧ rest' = [] ∨ ∃ a r r', rest = a :: r ∧ rest' = a :: r' := by
    cases rest <;> cases rest' <;> simp_all [Lookahead.ofRest]
  rcases hrest with ⟨rfl, rfl⟩ | ⟨a, r, r', rfl, rfl⟩
  · exact h
  · cases h with
    | unread => exact .unread
    | mismatch hne => exact .mismatch hne
    | unpredicted hs hp => exact .unpredicted hs hp
    | looping hp ho => exact .looping hp ho

theorem Path.of_lookahead {m m' : Machine} {steps : List TraceStep} (h : Path t m steps m')
    {rest : List String} (hla : Lookahead.ofRest rest = Lookahead.ofRest m'.rest) :
    ∃ steps', Path t (m.withRest (tokensRead steps ++ rest)) steps' (m'.withRest rest) := by
  induction h with
  | nil m => exact ⟨[], .nil _⟩
  | @cons m m' m'' a steps hm hpath ih =>
    obtain ⟨steps', hpath'⟩ := ih hla
    cases hm with
    | read => exact ⟨_, .cons .read hpath'⟩
    | @expand n opened below position unread p hp ho =>
      have hrest : unread = tokensRead steps ++ m''.rest := hpath.rest_eq
      have hsame := Lookahead.ofRest_append (tokensRead steps) hla
      rw [← hrest] at hsame
      exact ⟨_, .cons (.expand (hsame ▸ hp) ho) hpath'⟩

/-- a run ends without an error exactly if the stack and the tokens run out together -/
theorem Halt.error_eq_none_iff {m : Machine} {e : Option Rejection} (h : Halt t m e) :
    e = none ↔ m.stack = [] ∧ m.rest = [] := by
  cases h with
  | done => simp
  | unread => simp
  | exhausted => simp
  | mismatch => simp
  | unpredicted hs => simp [hs]
  | looping => simp

theorem Halt.position_eq {m : Machine} {e : Rejection} (h : Halt t m (some e)) :
    e.position = m.position := by
  cases h with
  | unread => rfl
  | exhausted => rfl
  | mismatch => rfl
  | unpredicted =>
    unfold noPrediction
    split <;> rfl
  | looping => rfl

end Machine

end Parse

namespace ParseTable

open Parse Machine

variable {g : Grammar} {t : ParseTable}

/-- what a parse does with the tokens `w`: it moves along the path and halts at the state -/
structure Course (g : Grammar) (t : ParseTable) (w : List String) (steps : List TraceStep)
    (m : Machine) : Prop where
  path : Path t (initial g.start w) steps m
  halt : Halt t m (t.parse w).error
  guarded : Guarded g t m
  parse : (t.parse w).steps =
    (initial g.start w).entry .start :: (steps ++ [m.entry (ending (t.parse w).error)])
  consumed : (t.parse w).consumed = m.position

theorem parse_of_runWithin {n : Nat} {w : List String} {o : Outcome}
    (h : runWithin t n (initial t.grammar.start w) = some o) :
    t.parse w = o.cons ((initial t.grammar.start w).entry .start) :=
  congrArg (Outcome.cons _) (run_of_runWithin h)

theorem course_of_path (hb : t.Built g) {w : List String} {steps : List TraceStep} {m : Machine}
    {e : Option Rejection} (hpath : Path t (initial g.start w) steps m) (he : Halt t m e) :
    t.Course g w steps m := by
  have hparse : t.parse w =
      ⟨(initial g.start w).entry .start :: (steps ++ [m.entry (ending e)]), e, m.position⟩ := by
    unfold ParseTable.parse
    rw [hb.grammar]
    dsimp only
    rw [run_of_path hpath he]
    rfl
  refine ⟨hpath, ?_, hpath.guarded hb (guarded_initial g t g.start w), ?_, ?_⟩ <;> rw [hparse]
  exact he

theorem exists_course (hb : t.Built g) (w : List String) : ∃ steps m, t.Course g w steps m := by
  obtain ⟨steps, m, e, hpath, he⟩ := exists_path t (initial g.start w)
  exact ⟨steps, m, course_of_path hb hpath he⟩

namespace Course

variable {w : List String} {steps : List TraceStep} {m : Machine}

/-- `start` and the ending are no moves -/
theorem filterMap_steps (h : t.Course g w steps m) {β : Type} {f : Action → Option β}
    (hstart : f .start = none) (hend : ∀ e, f (ending e) = none) :
    (t.parse w).steps.filterMap (fun s => f s.action) = steps.filterMap fun s => f s.action := by
  have hfirst : [(initial g.start w).entry .start].filterMap (fun s => f s.action) = [] :=
    List.filterMap_cons_none hstart
  have hlast : [m.entry (ending (t.parse w).error)].filterMap (fun s => f s.action) = [] :=
    List.filterMap_cons_none (hend _)
  rw [h.parse, ← List.singleton_append, List.filterMap_append, List.filterMap_append, hfirst,
    hlast, List.nil_append, List.append_nil]

theorem tokensRead_steps (h : t.Course g w steps m) :
    tokensRead (t.parse w).steps = tokensRead steps :=
  h.filterMap_steps (f := Action.matched?) rfl fun e => by cases e <;> rfl

theorem expansions_steps (h : t.Course g w steps m) :
    expansions (t.parse w).steps = expansions steps :=
  h.filterMap_steps (f := Action.expansion?) rfl fun e => by cases e <;> rfl

theorem position_eq (h : t.Course g w steps m) : m.position = (tokensRead steps).length :=
  h.path.position_eq.trans (Nat.zero_add _)

theorem tokens_eq (h : t.Course g w steps m) : w = tokensRead steps ++ m.rest := h.path.rest_eq

theorem take_consumed (h : t.Course g w steps m) :
    w.take (t.parse w).consumed = tokensRead steps := by
  rw [h.consumed, h.position_eq, h.tokens_eq, List.take_left]

theorem getLast?_steps (h : t.Course g w steps m) :
    (t.parse w).steps.getLast? = some (m.entry (ending (t.parse w).error)) := by
  rw [h.parse, ← List.cons_append]
  exact List.getLast?_concat

/-- an accepted sequence is read to its end, and nothing is left of the form -/
theorem of_accepted (h : t.Course g w steps m) (haccept : (t.parse w).accepted = true) :
    m.form = [] ∧ tokensRead steps = w := by
  obtain ⟨hstack, hrest⟩ := h.halt.error_eq_none_iff.mp (Option.isNone_iff_eq_none.mp haccept)
  have htokens := h.tokens_eq
  rw [hrest, List.append_nil] at htokens
  exact ⟨List.map_eq_nil_iff.mpr hstack, htokens.symm⟩

end Course

end ParseTable

end SpanishSyntax
