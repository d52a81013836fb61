import SpanishSyntax.Ascending
import SpanishSyntax.Automaton.Basic

/-!
# Blueprints of automata

A blueprint collects the clauses that describe an automaton: symbols, states, transitions, the
initial state.  `Blueprint.build` checks them and assembles the automaton.  The clauses may
come in any order; the states, the initial state and then the transitions are checked in the
order of their clauses, and the first defect is reported.
-/

namespace SpanishSyntax.Automaton

structure Edge where
  source : String
  symbol : Char
  target : String
  deriving DecidableEq, Repr

structure Blueprint where
  name : String
  description : String
  alphabet : List Char
  states : List (String × Bool)
  initial : Option String
  edges : List Edge
  deriving DecidableEq, Repr

/-- one clause of a description -/
inductive Clause where
  | description (text : String)
  | symbols (cs : List Char)
  | state (id : String) (accepting : Bool)
  | initial (id : String)
  | edge (e : Edge)
  deriving DecidableEq, Repr

/-- why a blueprint describes no automaton; each names the automaton first -/
inductive Defect where
  | duplicateState (automaton state : String)
  | missingInitialState (automaton : String)
  | unknownState (automaton state : String)
  | symbolOutsideAlphabet (automaton state : String) (symbol : Char)
  | nondeterministic (automaton state : String) (symbol : Char)
  deriving DecidableEq, Repr

def Defect.message : Defect → String
  | .duplicateState a s => s!"automaton '{a}' declares state '{s}' twice"
  | .missingInitialState a => s!"automaton '{a}' has no initial state"
  | .unknownState a s => s!"automaton '{a}' references unknown state '{s}'"
  | .symbolOutsideAlphabet a s c =>
    s!"automaton '{a}': symbol '{c}' in state '{s}' is outside the alphabet"
  | .nondeterministic a s c =>
    s!"automaton '{a}' is not deterministic: " ++
      s!"state '{s}' has more than one transition on '{c}'"

namespace Blueprint

def empty (name : String) : Blueprint := ⟨name, "", [], [], none, []⟩

def add (b : Blueprint) : Clause → Blueprint
  | .description text => { b with description := text }
  | .symbols cs => { b with alphabet := Ascending.union b.alphabet cs }
  | .state id accepting => { b with states := b.states ++ [(id, accepting)] }
  | .initial id => { b with initial := some id }
  | .edge e => { b with edges := b.edges ++ [e] }

def ofClauses (name : String) (cs : List Clause) : Blueprint := cs.foldl add (empty name)

/-- an edge for every symbol -/
def fan (source : String) (symbols : List Char) (target : String) : List Clause :=
  symbols.map fun c => .edge ⟨source, c, target⟩

def ids (b : Blueprint) : List String := b.states.map (·.1)

/-- the first name that came before -/
def firstRepeat (seen : List String) : List String → Option String
  | [] => none
  | n :: ns => if n ∈ seen then some n else firstRepeat (n :: seen) ns

def checkInitial (b : Blueprint) : Except Defect String :=
  match b.initial with
  | none => .error (.missingInitialState b.name)
  | some i => if i ∈ b.ids then .ok i else .error (.unknownState b.name i)

/-- what is wrong with `e`, given the edges before it -/
def edgeDefect (b : Blueprint) (before : List Edge) (e : Edge) : Option Defect :=
  if e.target ∉ b.ids then some (.unknownState b.name e.target)
  else if e.symbol ∉ b.alphabet then some (.symbolOutsideAlphabet b.name e.source e.symbol)
  else if e.source ∉ b.ids then some (.unknownState b.name e.source)
  else if before.any fun f => f.source = e.source ∧ f.symbol = e.symbol then
    some (.nondeterministic b.name e.source e.symbol)
  else none

def firstEdgeDefect (b : Blueprint) (before : List Edge) : List Edge → Option Defect
  | [] => none
  | e :: es =>
    match b.edgeDefect before e with
    | some d => some d
    | none => b.firstEdgeDefect (e :: before) es

/-- the state `id` with its edges in the order of the alphabet -/
def stateNamed (b : Blueprint) (id : String) : State where
  id := id
  accepting := b.states.any fun s => s.1 = id ∧ s.2 = true
  transitions := b.alphabet.filterMap fun c =>
    (b.edges.find? fun e => e.source = id ∧ e.symbol = c).map fun e => (c, e.target)

def assemble (b : Blueprint) (initial : String) : Automaton where
  name := b.name
  description := b.description
  alphabet := b.alphabet
  states := (Ascending.ofList b.ids).map b.stateNamed
  initial := initial

def build (b : Blueprint) : Except Defect Automaton := do
  match firstRepeat [] b.ids with
  | some id => .error (.duplicateState b.name id)
  | none => pure ()
  let initial ← b.checkInitial
  match b.firstEdgeDefect [] b.edges with
  | some d => .error d
  | none => pure (b.assemble initial)

end Blueprint

end SpanishSyntax.Automaton
