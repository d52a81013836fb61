import SpanishSyntax.Automaton.Basic

/-!
# Running an automaton

`Automaton.simulate` records every transition taken and, when the input is not accepted, why
the run stopped.  Positions count characters from zero.
-/

namespace SpanishSyntax.Automaton

/-- one character consumed -/
structure Transition where
  state : String
  symbol : Char
  next : String
  deriving DecidableEq, Repr

inductive Halt where
  | alphabetViolation (symbol : Char) (position : Nat)
  | noTransition (state : String) (symbol : Char) (position : Nat)
  | incompleteAcceptance (state : String) (position : Nat)
  deriving DecidableEq, Repr

namespace Halt

/-- the character that stopped the run; none if the input ran out -/
def symbol? : Halt → Option Char
  | .alphabetViolation c _ => some c
  | .noTransition _ c _ => some c
  | .incompleteAcceptance _ _ => none

def position : Halt → Nat
  | .alphabetViolation _ n => n
  | .noTransition _ _ n => n
  | .incompleteAcceptance _ n => n

def message : Halt → String
  | .alphabetViolation c n => s!"character '{c}' at position {n} is outside the alphabet"
  | .noTransition s c n => s!"no transition from state '{s}' on '{c}' at position {n}"
  | .incompleteAcceptance s n => s!"input ended at position {n} in non-accepting state '{s}'"

end Halt

structure Simulation where
  steps : List Transition
  accepted : Bool
  halt : Option Halt
  deriving DecidableEq, Repr

def Simulation.cons (t : Transition) (r : Simulation) : Simulation :=
  { r with steps := t :: r.steps }

/-- why a character cannot be consumed in `s` -/
def blocked (a : Automaton) (s : State) (c : Char) (position : Nat) : Halt :=
  if c ∈ a.alphabet then .noTransition s.id c position else .alphabetViolation c position

def simulateFrom (a : Automaton) (s : State) (position : Nat) : List Char → Simulation
  | [] =>
    if s.accepting then ⟨[], true, none⟩
    else ⟨[], false, some (.incompleteAcceptance s.id position)⟩
  | c :: cs =>
    match a.step? s c with
    | some t => (a.simulateFrom t (position + 1) cs).cons ⟨s.id, c, t.id⟩
    | none => ⟨[], false, some (a.blocked s c position)⟩

def simulate (a : Automaton) (input : String) : Simulation :=
  a.simulateFrom a.start 0 input.toList

theorem simulateFrom_nil (a : Automaton) (s : State) (n : Nat) :
    a.simulateFrom s n [] = if s.accepting then ⟨[], true, none⟩
      else ⟨[], false, some (.incompleteAcceptance s.id n)⟩ := rfl

end SpanishSyntax.Automaton
