import SpanishSyntax.Grammar.Basic

/-!
# Parse traces

A trace lists what the parser did, with its stack and unread tokens after each action.  It
begins with `start` and ends with `accept` or `reject`.  Positions count tokens from zero.
-/

namespace SpanishSyntax.Parse

/-- why a token sequence was rejected -/
inductive Rejection where
  | terminalMismatch (expected found : String) (position : Nat)
  | noProduction (nonterminal lookahead : String) (position : Nat)
  | incompleteDerivation (position : Nat)
  | leftRecursion (nonterminal : String) (position : Nat)
  deriving DecidableEq, Repr

namespace Rejection

def position : Rejection → Nat
  | .terminalMismatch _ _ n => n
  | .noProduction _ _ n => n
  | .incompleteDerivation n => n
  | .leftRecursion _ n => n

def message : Rejection → String
  | .terminalMismatch e f n => s!"expected '{e}' but found '{f}' at position {n}"
  | .noProduction x l n => s!"no production for {x} with lookahead '{l}' at position {n}"
  | .incompleteDerivation n => s!"derivation incomplete at position {n}"
  | .leftRecursion x n => s!"{x} expanded again at position {n} without consuming input"

end Rejection

inductive Action where
  | start
  | expand (nonterminal : String) (body : List Symbol)
  | matched (terminal : String)
  | accept
  | reject (error : Rejection)
  deriving DecidableEq, Repr

namespace Action

def text : Action → String
  | .start => "start"
  | .expand n body => "expand " ++ n ++ " → " ++ Symbol.sequenceText body
  | .matched t => s!"match '{t}'"
  | .accept => "accept"
  | .reject e => "reject: " ++ e.message

def expansion? : Action → Option (String × List Symbol)
  | .expand n body => some (n, body)
  | _ => none

end Action

/-- `stack` is written bottom first -/
structure TraceStep where
  stack : List String
  remaining : List String
  action : Action
  deriving DecidableEq, Repr

/-- `$` lies under the stack and behind the unread tokens -/
def TraceStep.text (s : TraceStep) : String :=
  Text.joined " " ("$" :: s.stack) ++ " | " ++ Text.joined " " (s.remaining ++ ["$"]) ++ " | " ++
    s.action.text

/-- the expansions of a trace, in order -/
def expansions (steps : List TraceStep) : List (String × List Symbol) :=
  steps.filterMap fun s => s.action.expansion?

/-- `consumed` counts the tokens matched before the parser stopped -/
structure Outcome where
  steps : List TraceStep
  error : Option Rejection
  consumed : Nat
  deriving DecidableEq, Repr

namespace Outcome

def accepted (o : Outcome) : Bool := o.error.isNone

def cons (s : TraceStep) (o : Outcome) : Outcome := { o with steps := s :: o.steps }

end Outcome

theorem expansions_append (a b : List TraceStep) :
    expansions (a ++ b) = expansions a ++ expansions b := by
  simp [expansions, List.filterMap_append]

end SpanishSyntax.Parse
