import SpanishSyntax.Parse.StackRun
import SpanishSyntax.Proofs.Parse.Moves

/-!
# The loop runs the machine

`StackRun.machine` forgets where the frames were pushed: it turns the stack over, and keeps of a
frame's open nonterminals those that were opened at the present position.  A frame pushed before
the last token has none of them, which is what the machine means by closing everything when it
reads a token, as long as no frame was pushed further on than the loop has read (`Placed`).

* `StackRun.turn_cases`         a turn is a move of the machine with its entry, or it is the last
                                one, the machine halts, and the frame that was popped is back when
                                the ending is recorded;
* `StackRun.ends_iff`           so the loop ends, from every run that is placed, in one outcome;
* `ParseTable.loopEnds_iff`     from the start, that outcome is `ParseTable.parse`.
-/

namespace SpanishSyntax.Parse

/-- what the loop counts as open at the position -/
def PushedFrame.openAt (position : Nat) (f : PushedFrame) : List String :=
  if f.pushedAt = position then f.opened else []

def PushedFrame.frame (position : Nat) (f : PushedFrame) : Frame :=
  ⟨f.symbol, (f.openAt position).reverse⟩

namespace StackRun

variable {t : ParseTable} {tokens : List String}

def machine (tokens : List String) (r : StackRun) : Machine :=
  ⟨(r.stack.map (PushedFrame.frame r.position)).reverse, r.position, tokens.drop r.position⟩

/-- no further on than the tokens, and no frame pushed further on than the run -/
structure Placed (tokens : List String) (r : StackRun) : Prop where
  position_le : r.position ≤ tokens.length
  pushed_le : ∀ f ∈ r.stack, f.pushedAt ≤ r.position

theorem placed_initial (start : String) (tokens : List String) :
    Placed tokens (initial start tokens) :=
  ⟨Nat.zero_le _, List.forall_mem_singleton.mpr (Nat.le_refl 0)⟩

theorem machine_initial (start : String) (tokens : List String) :
    (initial start tokens).machine tokens = .initial start tokens := by
  simp [machine, initial, snapshot, Machine.initial, PushedFrame.frame, PushedFrame.openAt]

theorem machine_concat (tokens : List String) (below : List PushedFrame) (f : PushedFrame)
    (position : Nat) (steps : List TraceStep) :
    machine tokens ⟨below ++ [f], position, steps⟩ =
      ⟨f.frame position :: (below.map (PushedFrame.frame position)).reverse, position,
        tokens.drop position⟩ := by
  simp [machine]

/-- a snapshot is the entry of the machine -/
theorem snapshot_eq (r : StackRun) (a : Action) :
    r.snapshot tokens a = { r with steps := r.steps ++ [(r.machine tokens).entry a] } := by
  simp [snapshot, machine, Machine.entry, PushedFrame.frame, Function.comp_def]

theorem finish_eq (r : StackRun) (e : Option Rejection) :
    r.finish tokens e =
      ⟨r.steps ++ [(r.machine tokens).entry (Machine.ending e)], e, r.position⟩ := by
  unfold finish
  rw [snapshot_eq]
  cases e <;> rfl

theorem pop?_concat (below : List PushedFrame) (f : PushedFrame) (position : Nat)
    (steps : List TraceStep) :
    pop? ⟨below ++ [f], position, steps⟩ = some (f, ⟨below, position, steps⟩) := by
  simp [pop?]

/-- nothing that was pushed before the token is open behind it -/
theorem frame_succ {f : PushedFrame} {position : Nat} (h : f.pushedAt ≤ position) :
    f.frame (position + 1) = ⟨f.symbol, []⟩ := by
  have hne : f.pushedAt ≠ position + 1 := by omega
  rw [PushedFrame.frame, PushedFrame.openAt, if_neg hne, List.reverse_nil]

theorem map_frame_succ {below : List PushedFrame} {position : Nat}
    (h : ∀ f ∈ below, f.pushedAt ≤ position) :
    (below.map (PushedFrame.frame (position + 1))).reverse =
      Machine.closeAll (below.map (PushedFrame.frame position)).reverse := by
  rw [Machine.closeAll, List.map_reverse, List.map_map]
  exact congrArg List.reverse (List.map_congr_left fun f hf => frame_succ (h f hf))

/-- what was pushed for a body, and the frames of the expansion -/
theorem map_frame_pushed (p : Production) (f : PushedFrame) (position : Nat) :
    ((p.body.reverse.map fun s => (⟨s, position, f.openAt position ++ [p.head]⟩ : PushedFrame)).map
      (PushedFrame.frame position)).reverse =
        Machine.expansion p (f.openAt position).reverse := by
  rw [← List.map_reverse, ← List.map_reverse, List.reverse_reverse, List.map_map,
    Machine.expansion]
  refine List.map_congr_left fun s _ => ?_
  simp [PushedFrame.frame, PushedFrame.openAt]

/-! ## one turn -/

/-- the turn goes on as the machine does, and the trace is longer by the entry of the move -/
structure Goes (t : ParseTable) (tokens : List String) (r : StackRun) (a : Action)
    (r' : StackRun) : Prop where
  turn : r.turn t tokens = .next r'
  move : Machine.Move t (r.machine tokens) a (r'.machine tokens)
  steps : r'.steps = r.steps ++ [(r'.machine tokens).entry a]
  placed : Placed tokens r'

/-- the turn is the last one, and the ending is recorded on the stack as it was before it -/
structure Stops (t : ParseTable) (tokens : List String) (r : StackRun) (e : Option Rejection) :
    Prop where
  turn : r.turn t tokens =
    .last ⟨r.steps ++ [(r.machine tokens).entry (Machine.ending e)], e, r.position⟩
  halt : Machine.Halt t (r.machine tokens) e

def Mirrors (t : ParseTable) (tokens : List String) (r : StackRun) : Prop :=
  (∃ a r', Goes t tokens r a r') ∨ ∃ e, Stops t tokens r e

theorem turn_concat_of_drop_nil (t : ParseTable) (below : List PushedFrame) (f : PushedFrame)
    {position : Nat} (steps : List TraceStep) (h : tokens.drop position = []) :
    turn t tokens ⟨below ++ [f], position, steps⟩ =
      turnAtEnd t tokens f ⟨below, position, steps⟩ := by
  have hnone : tokens[position]? = none := by rw [← List.head?_drop, h, List.head?_nil]
  simp only [turn, pop?_concat, hnone]

theorem turn_concat_of_drop_cons (t : ParseTable) (below : List PushedFrame) (f : PushedFrame)
    {position : Nat} (steps : List TraceStep) {current : String} {rest : List String}
    (h : tokens.drop position = current :: rest) :
    turn t tokens ⟨below ++ [f], position, steps⟩ =
      turnBefore t tokens current f ⟨below, position, steps⟩ := by
  have hsome : tokens[position]? = some current := by rw [← List.head?_drop, h, List.head?_cons]
  simp only [turn, pop?_concat, hsome]

section
variable {below : List PushedFrame} {f : PushedFrame} {position : Nat} {steps : List TraceStep}

/-- the frame is back on the stack when the failure is recorded -/
theorem fail_eq (e : Rejection) :
    fail tokens f e ⟨below, position, steps⟩ =
      .last ⟨steps ++ [(machine tokens ⟨below ++ [f], position, steps⟩).entry
        (Machine.ending (some e))], some e, position⟩ :=
  congrArg Turn.last (finish_eq _ _)

theorem stops_of_fail {e : Rejection}
    (hturn : turn t tokens ⟨below ++ [f], position, steps⟩ =
      fail tokens f e ⟨below, position, steps⟩)
    (hhalt : Machine.Halt t (machine tokens ⟨below ++ [f], position, steps⟩) (some e)) :
    Stops t tokens ⟨below ++ [f], position, steps⟩ (some e) :=
  ⟨hturn.trans (fail_eq e), hhalt⟩

/-- an expansion succeeds or fails as the machine's does -/
theorem expand_cases {n : String} {p : Production} (hf : f.symbol = .nonterminal n)
    (hp : t.predict n (Lookahead.ofRest (tokens.drop position)) = some p)
    (hturn : turn t tokens ⟨below ++ [f], position, steps⟩ =
      expand tokens f p ⟨below, position, steps⟩)
    (hr : Placed tokens ⟨below ++ [f], position, steps⟩) :
    Mirrors t tokens ⟨below ++ [f], position, steps⟩ := by
  have hmachine := machine_concat tokens below f position steps
  rw [PushedFrame.frame, hf] at hmachine
  by_cases ho : p.head ∈ f.openAt position
  · refine .inr ⟨_, stops_of_fail (hturn.trans (if_pos ho)) ?_⟩
    rw [hmachine]
    exact .looping hp (List.mem_reverse.mpr ho)
  · let pushed := p.body.reverse.map fun s =>
      (⟨s, position, f.openAt position ++ [p.head]⟩ : PushedFrame)
    let r' : StackRun := ⟨below ++ pushed, position, steps⟩
    have hr' : machine tokens r' = ⟨Machine.expansion p (f.openAt position).reverse ++
        (below.map (PushedFrame.frame position)).reverse, position, tokens.drop position⟩ := by
      rw [← map_frame_pushed, ← List.reverse_append, ← List.map_append]
      rfl
    refine .inl ⟨.expand p.head p.body, r'.snapshot tokens (.expand p.head p.body), ?_⟩
    rw [snapshot_eq]
    refine ⟨?_, ?_, rfl, hr.position_le, fun x hx => ?_⟩
    · rw [hturn, ← snapshot_eq]
      exact if_neg ho
    · rw [hmachine]
      show Machine.Move t _ _ (machine tokens r')
      rw [hr']
      exact .expand hp fun h => ho (List.mem_reverse.mp h)
    · rcases List.mem_append.mp hx with hx | hx
      · exact hr.pushed_le x (List.mem_append_left _ hx)
      · obtain ⟨s, _, rfl⟩ := List.mem_map.mp hx
        exact Nat.le_refl position

/-- all tokens are read -/
theorem turn_cases_at_end (hdrop : tokens.drop position = [])
    (hr : Placed tokens ⟨below ++ [f], position, steps⟩) :
    Mirrors t tokens ⟨below ++ [f], position, steps⟩ := by
  have hturn := turn_concat_of_drop_nil t below f steps hdrop
  have hmachine := machine_concat tokens below f position steps
  rw [PushedFrame.frame, hdrop] at hmachine
  cases hf : f.symbol with
  | terminal a =>
    refine .inr ⟨_, stops_of_fail (e := .incompleteDerivation position) ?_ ?_⟩
    · rw [hturn, turnAtEnd, hf]
    · rw [hmachine, hf]
      exact .exhausted
  | nonterminal n =>
    cases hp : t.predict n .endOfInput with
    | none =>
      refine .inr ⟨_, stops_of_fail (e := .incompleteDerivation position) ?_ ?_⟩
      · simp only [hturn, turnAtEnd, hf, hp]
      · rw [hmachine, hf]
        exact .unpredicted rfl hp
    | some p =>
      refine expand_cases hf (by rwa [hdrop]) ?_ hr
      simp only [hturn, turnAtEnd, hf, hp]

/-- a token is left -/
theorem turn_cases_before {current : String} {rest : List String}
    (hdrop : tokens.drop position = current :: rest)
    (hr : Placed tokens ⟨below ++ [f], position, steps⟩) :
    Mirrors t tokens ⟨below ++ [f], position, steps⟩ := by
  have hturn := turn_concat_of_drop_cons t below f steps hdrop
  have hmachine := machine_concat tokens below f position steps
  rw [PushedFrame.frame, hdrop] at hmachine
  cases hf : f.symbol with
  | terminal expected =>
    by_cases heq : expected = current
    · subst heq
      have hrest : tokens.drop (position + 1) = rest := by
        rw [← List.tail_drop, hdrop, List.tail_cons]
      have hlt : position < tokens.length := by
        refine Nat.lt_of_not_le fun hle => List.cons_ne_nil expected rest ?_
        rw [← hdrop, List.drop_eq_nil_of_le hle]
      have hbelow : ∀ x ∈ below, x.pushedAt ≤ position := fun x hx =>
        hr.pushed_le x (List.mem_append_left _ hx)
      let r' : StackRun := ⟨below, position + 1, steps⟩
      refine .inl ⟨.matched expected, r'.snapshot tokens (.matched expected), ?_⟩
      rw [snapshot_eq]
      refine ⟨?_, ?_, rfl, hlt, fun x hx => Nat.le_succ_of_le (hbelow x hx)⟩
      · rw [hturn, turnBefore, hf, ← snapshot_eq]
        exact if_pos rfl
      · rw [hmachine, hf]
        show Machine.Move t _ _ (machine tokens r')
        rw [machine, map_frame_succ hbelow, hrest]
        exact .read
    · refine .inr ⟨_, stops_of_fail (e := .terminalMismatch expected current position) ?_ ?_⟩
      · rw [hturn, turnBefore, hf]
        exact if_neg heq
      · rw [hmachine, hf]
        exact .mismatch heq
  | nonterminal n =>
    cases hp : t.predict n (.terminal current) with
    | none =>
      refine .inr ⟨_, stops_of_fail (e := .noProduction n current position) ?_ ?_⟩
      · simp only [hturn, turnBefore, hf, hp]
      · rw [hmachine, hf]
        exact .unpredicted rfl hp
    | some p =>
      refine expand_cases hf (by rwa [hdrop]) ?_ hr
      simp only [hturn, turnBefore, hf, hp]

end

theorem stops_of_empty {position : Nat} {steps : List TraceStep}
    (hr : Placed tokens ⟨[], position, steps⟩) : ∃ e, Stops t tokens ⟨[], position, steps⟩ e := by
  refine ⟨_, congrArg Turn.last (finish_eq _ _), ?_⟩
  rcases Nat.eq_or_lt_of_le hr.position_le with heq | hlt
  · have heq : position = tokens.length := heq
    have hdrop : tokens.drop position = [] := List.drop_eq_nil_of_le (Nat.le_of_eq heq.symm)
    rw [machine, hdrop, if_pos heq]
    exact .done
  · have hlt : position < tokens.length := hlt
    rw [machine, List.drop_eq_getElem_cons hlt, if_neg (Nat.ne_of_lt hlt)]
    exact .unread

theorem turn_cases (t : ParseTable) {r : StackRun} (hr : Placed tokens r) : Mirrors t tokens r := by
  obtain ⟨stack, position, steps⟩ := r
  rcases List.eq_nil_or_concat stack with rfl | ⟨below, f, hstack⟩
  · exact .inr (stops_of_empty hr)
  · rw [List.concat_eq_append] at hstack
    subst hstack
    cases hdrop : tokens.drop position with
    | nil => exact turn_cases_at_end hdrop hr
    | cons current rest => exact turn_cases_before hdrop hr

/-! ## the whole loop -/

theorem Ends.unique {r : StackRun} {o o' : Outcome} (h : Ends t tokens r o)
    (h' : Ends t tokens r o') : o = o' := by
  induction h with
  | last hlast =>
    cases h' with
    | last hlast' => exact Turn.last.inj (hlast.symm.trans hlast')
    | next hnext' _ => cases hlast.symm.trans hnext'
  | next hnext _ ih =>
    cases h' with
    | last hlast' => cases hnext.symm.trans hlast'
    | next hnext' hrest' =>
      obtain rfl := Turn.next.inj (hnext.symm.trans hnext')
      exact ih hrest'

/-- what was recorded before, and then what the machine does -/
def Outcome.after (steps : List TraceStep) (o : Outcome) : Outcome :=
  { o with steps := steps ++ o.steps }

theorem ends_run (t : ParseTable) {r : StackRun} (hr : Placed tokens r) :
    Ends t tokens r (Outcome.after r.steps ((r.machine tokens).run t)) := by
  generalize hm : r.machine tokens = m
  induction m using Machine.run_induction (t := t) generalizing r with
  | halt m e he =>
    rcases turn_cases t hr with ⟨a, r', hgoes⟩ | ⟨e', hstops⟩
    · cases (Machine.step_of_halt he).symm.trans (hm ▸ Machine.step_of_move hgoes.move)
    · have heq := (Machine.step_of_halt he).symm.trans (hm ▸ Machine.step_of_halt hstops.halt)
      obtain rfl := Machine.Step.halt.inj heq
      rw [Machine.run_of_halt he]
      subst hm
      exact .last hstops.turn
  | move m a m' hmove ih =>
    rcases turn_cases t hr with ⟨a', r', hgoes⟩ | ⟨e', hstops⟩
    · have heq := (Machine.step_of_move hmove).symm.trans (hm ▸ Machine.step_of_move hgoes.move)
      obtain ⟨rfl, rfl⟩ := Machine.Step.next.inj heq
      have hrest := ih hgoes.placed rfl
      rw [hgoes.steps, Outcome.after, List.append_assoc] at hrest
      rw [Machine.run_of_move hmove]
      exact .next hgoes.turn hrest
    · cases (Machine.step_of_move hmove).symm.trans (hm ▸ Machine.step_of_halt hstops.halt)

theorem ends_iff {r : StackRun} (hr : Placed tokens r) {o : Outcome} :
    Ends t tokens r o ↔ o = Outcome.after r.steps ((r.machine tokens).run t) := by
  refine ⟨fun h => h.unique (ends_run t hr), ?_⟩
  rintro rfl
  exact ends_run t hr

end StackRun

end SpanishSyntax.Parse

namespace SpanishSyntax.ParseTable

open Parse

theorem loopEnds_iff (t : ParseTable) (tokens : List String) (o : Outcome) :
    t.LoopEnds tokens o ↔ o = t.parse tokens := by
  unfold LoopEnds
  rw [StackRun.ends_iff (StackRun.placed_initial _ _), StackRun.machine_initial]
  rfl

end SpanishSyntax.ParseTable
