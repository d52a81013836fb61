/-!
# Deterministic finite automata over characters

An automaton holds its alphabet and its states in ascending order; a state holds its outgoing
transitions in ascending order of their symbols.  Automata come from `Automaton.Blueprint`,
which checks that they are well formed, and are run by `Automaton.Run`.
-/

namespace SpanishSyntax

structure Automaton.State where
  id : String
  accepting : Bool
  transitions : List (Char × String)
  deriving DecidableEq, Repr

/-- the target of the transition on `c`, if the state has one -/
def Automaton.State.next? (s : Automaton.State) (c : Char) : Option String :=
  (s.transitions.find? (·.1 = c)).map (·.2)

structure Automaton where
  name : String
  description : String
  alphabet : List Char
  states : List Automaton.State
  initial : String
  deriving DecidableEq, Repr

namespace Automaton

def state? (a : Automaton) (id : String) : Option State :=
  a.states.find? (·.id = id)

/-- where runs begin; an automaton without its initial state would be stuck there -/
def start (a : Automaton) : State :=
  (a.state? a.initial).getD ⟨a.initial, false, []⟩

/-- one step of the transition function -/
def step? (a : Automaton) (s : State) (c : Char) : Option State :=
  if c ∈ a.alphabet then (s.next? c).bind a.state? else none

/-- the transition function iterated over a text -/
def reach? (a : Automaton) (s : State) : List Char → Option State
  | [] => some s
  | c :: cs => (a.step? s c).bind fun t => a.reach? t cs

theorem reach?_nil (a : Automaton) (s : State) : a.reach? s [] = some s := rfl

def accepts (a : Automaton) (input : String) : Bool :=
  match a.reach? a.start input.toList with
  | some s => s.accepting
  | none => false

end Automaton

end SpanishSyntax
