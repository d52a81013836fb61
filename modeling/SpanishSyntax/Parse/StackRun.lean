import SpanishSyntax.Grammar.Table
import SpanishSyntax.Parse.Trace

/-!
# The parser's loop on one stack

`Machine.step` looks at the top of the stack, and a state that halts is left as it is.  Here the
loop is written on one stack that it changes as it goes: each turn takes the top frame off before
it knows what to do with it, and a turn that fails has to put the frame back before it writes the
last entry of the trace.  A frame keeps the position at which it was pushed, and the nonterminals
that were open there count only as long as no token has been read since.

Nothing here bounds the turns; `StackRun.Ends` says of a run that it comes to an end, and how.
-/

namespace SpanishSyntax.Parse

/-- `opened` lists the nonterminals expanded at `pushedAt` above this frame, the first one first -/
structure PushedFrame where
  symbol : Symbol
  pushedAt : Nat
  opened : List String
  deriving DecidableEq, Repr

/-- `stack` is written bottom first, as a trace shows it -/
structure StackRun where
  stack : List PushedFrame
  position : Nat
  steps : List TraceStep
  deriving DecidableEq, Repr

namespace StackRun

def snapshot (tokens : List String) (a : Action) (r : StackRun) : StackRun :=
  { r with
    steps := r.steps ++ [⟨r.stack.map (·.symbol.name), tokens.drop r.position, a⟩] }

def push (r : StackRun) (frames : List PushedFrame) : StackRun :=
  { r with stack := r.stack ++ frames }

/-- the top frame, and the run without it -/
def pop? (r : StackRun) : Option (PushedFrame × StackRun) :=
  r.stack.getLast?.map fun f => (f, { r with stack := r.stack.dropLast })

def initial (start : String) (tokens : List String) : StackRun :=
  snapshot tokens .start ⟨[⟨.nonterminal start, 0, []⟩], 0, []⟩

/-- the last entry, and what the trace comes to -/
def finish (tokens : List String) (error : Option Rejection) (r : StackRun) : Outcome :=
  let r := r.snapshot tokens (match error with | none => .accept | some e => .reject e)
  ⟨r.steps, error, r.position⟩

/-- a turn of the loop goes on or is the last one -/
inductive Turn where
  | next (r : StackRun)
  | last (o : Outcome)
  deriving DecidableEq, Repr

/-- the popped frame cannot be used: it goes back, and the run is over -/
def fail (tokens : List String) (f : PushedFrame) (error : Rejection) (r : StackRun) : Turn :=
  .last ((r.push [f]).finish tokens (some error))

/-- the body in the place of the popped frame, unless the head is open here already -/
def expand (tokens : List String) (f : PushedFrame) (p : Production) (r : StackRun) : Turn :=
  let opened := if f.pushedAt = r.position then f.opened else []
  if p.head ∈ opened then r.fail tokens f (.leftRecursion p.head r.position)
  else
    let pushed := p.body.reverse.map fun s => ⟨s, r.position, opened ++ [p.head]⟩
    .next ((r.push pushed).snapshot tokens (.expand p.head p.body))

/-- the popped frame when all tokens are read: only the cells of `$` are left -/
def turnAtEnd (t : ParseTable) (tokens : List String) (f : PushedFrame) (r : StackRun) : Turn :=
  let production : Option Production :=
    match f.symbol with
    | .nonterminal n => t.predict n .endOfInput
    | .terminal _ => none
  match production with
  | some p => r.expand tokens f p
  | none => r.fail tokens f (.incompleteDerivation r.position)

/-- the popped frame before the token `current` -/
def turnBefore (t : ParseTable) (tokens : List String) (current : String) (f : PushedFrame)
    (r : StackRun) : Turn :=
  match f.symbol with
  | .terminal expected =>
    if expected = current then
      .next (snapshot tokens (.matched expected) { r with position := r.position + 1 })
    else r.fail tokens f (.terminalMismatch expected current r.position)
  | .nonterminal n =>
    match t.predict n (.terminal current) with
    | some p => r.expand tokens f p
    | none => r.fail tokens f (.noProduction n current r.position)

/-- an empty stack ends the loop, and the tokens are accepted if none is left -/
def turnEmpty (tokens : List String) (r : StackRun) : Turn :=
  .last (r.finish tokens
    (if r.position = tokens.length then none else some (.incompleteDerivation r.position)))

def turn (t : ParseTable) (tokens : List String) (r : StackRun) : Turn :=
  match r.pop? with
  | none => r.turnEmpty tokens
  | some (f, r) =>
    match tokens[r.position]? with
    | none => r.turnAtEnd t tokens f
    | some current => r.turnBefore t tokens current f

/-- turns until one is the last -/
inductive Ends (t : ParseTable) (tokens : List String) : StackRun → Outcome → Prop where
  | last {r : StackRun} {o : Outcome} (h : r.turn t tokens = .last o) : Ends t tokens r o
  | next {r r' : StackRun} {o : Outcome} (h : r.turn t tokens = .next r')
      (rest : Ends t tokens r' o) : Ends t tokens r o

end StackRun

end SpanishSyntax.Parse

namespace SpanishSyntax

open Parse

/-- the loop, with the start symbol alone on the stack, ends with the outcome -/
def ParseTable.LoopEnds (t : ParseTable) (tokens : List String) (o : Outcome) : Prop :=
  StackRun.Ends t tokens (.initial t.grammar.start tokens) o

end SpanishSyntax
