import Mathlib.Logic.Relation
import SpanishSyntax.Parse.Machine

/-!
# What a step of the parser can do

* `Machine.Move`    the two ways to go on: a token is read, a nonterminal is expanded;
* `Machine.Halt`    the six ways to stop, with the error of each;
* `Machine.step_eq_next_iff`, `Machine.step_eq_halt_iff`   a step does exactly these;
* `Machine.run_induction`    a run is moves that end in a halt.
-/

namespace SpanishSyntax.Parse.Machine

variable {t : ParseTable}

inductive Move (t : ParseTable) : Machine → Action → Machine → Prop where
  | read {a : String} {opened : List String} {below : List Frame} {position : Nat}
      {rest : List String} :
      Move t ⟨⟨.terminal a, opened⟩ :: below, position, a :: rest⟩ (.matched a)
        ⟨closeAll below, position + 1, rest⟩
  | expand {n : String} {opened : List String} {below : List Frame} {position : Nat}
      {rest : List String} {p : Production}
      (hp : t.predict n (Lookahead.ofRest rest) = some p) (ho : p.head ∉ opened) :
      Move t ⟨⟨.nonterminal n, opened⟩ :: below, position, rest⟩ (.expand p.head p.body)
        ⟨expansion p opened ++ below, position, rest⟩

inductive Halt (t : ParseTable) : Machine → Option Rejection → Prop where
  | done {position : Nat} : Halt t ⟨[], position, []⟩ none
  | unread {position : Nat} {a : String} {rest : List String} :
      Halt t ⟨[], position, a :: rest⟩ (some (.incompleteDerivation position))
  | exhausted {a : String} {opened : List String} {below : List Frame} {position : Nat} :
      Halt t ⟨⟨.terminal a, opened⟩ :: below, position, []⟩
        (some (.incompleteDerivation position))
  | mismatch {a b : String} {opened : List String} {below : List Frame} {position : Nat}
      {rest : List String} (hne : a ≠ b) :
      Halt t ⟨⟨.terminal a, opened⟩ :: below, position, b :: rest⟩
        (some (.terminalMismatch a b position))
  | unpredicted {m : Machine} {n : String} {opened : List String} {below : List Frame}
      (hs : m.stack = ⟨.nonterminal n, opened⟩ :: below)
      (hp : t.predict n (Lookahead.ofRest m.rest) = none) : Halt t m (some (m.noPrediction n))
  | looping {n : String} {opened : List String} {below : List Frame} {position : Nat}
      {rest : List String} {p : Production}
      (hp : t.predict n (Lookahead.ofRest rest) = some p) (ho : p.head ∈ opened) :
      Halt t ⟨⟨.nonterminal n, opened⟩ :: below, position, rest⟩
        (some (.leftRecursion p.head position))

theorem step_of_move {m m' : Machine} {a : Action} (h : Move t m a m') :
    m.step t = .next a m' := by
  cases h with
  | read => simp [step, matchTop]
  | expand hp ho => simp [step, expandTop, hp, ho]

theorem step_of_halt {m : Machine} {e : Option Rejection} (h : Halt t m e) :
    m.step t = .halt e := by
  cases h with
  | done => rfl
  | unread => rfl
  | exhausted => rfl
  | mismatch hne => simp [step, matchTop, hne]
  | unpredicted hs hp => simp [step, hs, expandTop, hp]
  | looping hp ho => simp [step, expandTop, hp, ho]

/-- every state moves or halts -/
theorem move_or_halt (t : ParseTable) (m : Machine) :
    (∃ a m', Move t m a m') ∨ ∃ e, Halt t m e := by
  obtain ⟨stack, position, rest⟩ := m
  match stack, rest with
  | [], [] => exact .inr ⟨_, .done⟩
  | [], a :: rest => exact .inr ⟨_, .unread⟩
  | ⟨.terminal a, opened⟩ :: below, [] => exact .inr ⟨_, .exhausted⟩
  | ⟨.terminal a, opened⟩ :: below, b :: rest =>
    by_cases hab : a = b
    · subst hab
      exact .inl ⟨_, _, .read⟩
    · exact .inr ⟨_, .mismatch hab⟩
  | ⟨.nonterminal n, opened⟩ :: below, rest =>
    cases hp : t.predict n (Lookahead.ofRest rest) with
    | none => exact .inr ⟨_, .unpredicted rfl hp⟩
    | some p =>
      by_cases ho : p.head ∈ opened
      · exact .inr ⟨_, .looping hp ho⟩
      · exact .inl ⟨_, _, .expand hp ho⟩

theorem step_eq_next_iff {m m' : Machine} {a : Action} :
    m.step t = .next a m' ↔ Move t m a m' := by
  refine ⟨fun h => ?_, step_of_move⟩
  rcases move_or_halt t m with ⟨b, m'', hm⟩ | ⟨e, he⟩
  · have hstep := step_of_move hm
    rw [h] at hstep
    cases hstep
    exact hm
  · have hstep := step_of_halt he
    rw [h] at hstep
    cases hstep

theorem step_eq_halt_iff {m : Machine} {e : Option Rejection} :
    m.step t = .halt e ↔ Halt t m e := by
  refine ⟨fun h => ?_, step_of_halt⟩
  rcases move_or_halt t m with ⟨a, m', hm⟩ | ⟨e', he⟩
  · have hstep := step_of_move hm
    rw [h] at hstep
    cases hstep
  · have hstep := step_of_halt he
    rw [h] at hstep
    cases hstep
    exact he

/-! ## runs -/

/-- the last action of a trace -/
def ending : Option Rejection → Action
  | none => .accept
  | some e => .reject e

theorem run_of_halt {m : Machine} {e : Option Rejection} (h : Halt t m e) :
    m.run t = ⟨[m.entry (ending e)], e, m.position⟩ := by
  have hstep := step_of_halt h
  rw [run]
  split
  · rename_i e' he
    rw [hstep] at he
    cases he
    cases e <;> rfl
  · rename_i he
    rw [hstep] at he
    cases he

theorem run_of_move {m m' : Machine} {a : Action} (h : Move t m a m') :
    m.run t = (m'.run t).cons (m'.entry a) := by
  have hstep := step_of_move h
  rw [run]
  split
  · rename_i he
    rw [hstep] at he
    cases he
  · rename_i he
    rw [hstep] at he
    cases he
    rfl

theorem run_induction {P : Machine → Prop} (halt : ∀ m e, Halt t m e → P m)
    (move : ∀ m a m', Move t m a m' → P m' → P m) (m : Machine) : P m :=
  run.induct t P (fun m e h => halt m e (step_eq_halt_iff.mp h))
    (fun m a m' h ih => move m a m' (step_eq_next_iff.mp h) ih) m

/-- any number of steps -/
abbrev Reaches (t : ParseTable) : Machine → Machine → Prop :=
  Relation.ReflTransGen fun m m' => ∃ a, m.step t = .next a m'

/-- the outcome of a run is decided by the halt that it reaches -/
theorem exists_halt (t : ParseTable) (m : Machine) :
    ∃ m' e, Reaches t m m' ∧ m'.step t = .halt e ∧ (m.run t).error = e ∧
      (m.run t).consumed = m'.position := by
  induction m using run_induction (t := t) with
  | halt m e h =>
    rw [run_of_halt h]
    exact ⟨m, e, .refl, step_of_halt h, rfl, rfl⟩
  | move m a m' h ih =>
    obtain ⟨m'', e, hreach, hhalt, herror, hconsumed⟩ := ih
    rw [run_of_move h]
    exact ⟨m'', e, .head ⟨a, step_of_move h⟩ hreach, hhalt, herror, hconsumed⟩

end SpanishSyntax.Parse.Machine
