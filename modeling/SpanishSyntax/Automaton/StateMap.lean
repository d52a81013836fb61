import SpanishSyntax.Automaton.Blueprint
import SpanishSyntax.Entries

/-!
# Automata built in place

`Blueprint.build` checks a blueprint and then says what each state is.  Here the states are put
into a map one after the other, and each edge is inserted into the state it leaves as soon as it is
checked; that a state has two edges on one symbol is noticed when the second replaces the first.
The first defect ends the building, whatever is in the map by then.
-/

namespace SpanishSyntax.Automaton

abbrev StateMap := Entries String State

namespace Blueprint

def declareStates (automaton : String) :
    List (String × Bool) → StateMap → Except Defect StateMap
  | [], m => .ok m
  | (id, accepting) :: rest, m =>
    if (m.get? id).isSome then .error (.duplicateState automaton id)
    else declareStates automaton rest (m.put id fun _ => ⟨id, accepting, []⟩)

def chooseInitial (b : Blueprint) (m : StateMap) : Except Defect String :=
  match b.initial with
  | some i => if (m.get? i).isSome then .ok i else .error (.unknownState b.name i)
  | none => .error (.missingInitialState b.name)

def insertEdge (b : Blueprint) (m : StateMap) (e : Edge) : Except Defect StateMap :=
  if (m.get? e.target).isNone then .error (.unknownState b.name e.target)
  else if e.symbol ∉ b.alphabet then .error (.symbolOutsideAlphabet b.name e.source e.symbol)
  else
    match m.get? e.source with
    | none => .error (.unknownState b.name e.source)
    | some s =>
      let replaced := Entries.get? s.transitions e.symbol
      let transitions := Entries.put e.symbol (fun _ => e.target) s.transitions
      let m := m.put e.source fun _ => ⟨s.id, s.accepting, transitions⟩
      if replaced.isSome then .error (.nondeterministic b.name e.source e.symbol) else .ok m

def insertEdges (b : Blueprint) : List Edge → StateMap → Except Defect StateMap
  | [], m => .ok m
  | e :: es, m => do
    let m ← b.insertEdge m e
    b.insertEdges es m

def buildInPlace (b : Blueprint) : Except Defect Automaton := do
  let m ← declareStates b.name b.states []
  let initial ← b.chooseInitial m
  let m ← b.insertEdges b.edges m
  pure ⟨b.name, b.description, b.alphabet, m.map (·.2), initial⟩

end Blueprint

end SpanishSyntax.Automaton
