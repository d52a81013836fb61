import SpanishSyntax.Grammar.Table
import SpanishSyntax.Parse.Trace
import SpanishSyntax.Total

/-!
# The predictive parser

A stack machine driven by a prediction table.  A terminal on top of the stack must equal the
next token; a nonterminal is replaced by the production that the table predicts for the next
lookahead, which is `$` once the tokens are used up.  A token sequence is accepted when the
stack and the tokens run out together.

Every frame carries the nonterminals that were expanded on the way to it since the last token
was read.  Expanding one of them again would loop, and the run is rejected instead.  This is why
a run ends (`Machine.decreases_of_next`): each expansion replaces a frame by frames that have one
production head fewer left to expand, so their `weight` together is smaller, and matching a
token shortens the input.
-/

namespace SpanishSyntax.Parse

structure Frame where
  symbol : Symbol
  opened : List String
  deriving DecidableEq, Repr

/-- `stack` is written top first -/
structure Machine where
  stack : List Frame
  position : Nat
  rest : List String
  deriving DecidableEq, Repr

namespace Machine

def initial (start : String) (tokens : List String) : Machine :=
  ⟨[⟨.nonterminal start, []⟩], 0, tokens⟩

/-- the trace entry for an action that led to this state -/
def entry (m : Machine) (a : Action) : TraceStep :=
  ⟨m.stack.reverse.map (·.symbol.name), m.rest, a⟩

/-- reading a token closes everything that was open -/
def closeAll (stack : List Frame) : List Frame := stack.map fun f => ⟨f.symbol, []⟩

def expansion (p : Production) (opened : List String) : List Frame :=
  p.body.map fun s => ⟨s, p.head :: opened⟩

inductive Step where
  | next (a : Action) (m : Machine)
  | halt (error : Option Rejection)
  deriving DecidableEq, Repr

def matchTop (m : Machine) (expected : String) (below : List Frame) : Step :=
  match m.rest with
  | [] => .halt (some (.incompleteDerivation m.position))
  | found :: rest =>
    if expected = found then .next (.matched expected) ⟨closeAll below, m.position + 1, rest⟩
    else .halt (some (.terminalMismatch expected found m.position))

def noPrediction (m : Machine) (nonterminal : String) : Rejection :=
  match m.rest with
  | [] => .incompleteDerivation m.position
  | found :: _ => .noProduction nonterminal found m.position

def expandTop (t : ParseTable) (m : Machine) (nonterminal : String) (opened : List String)
    (below : List Frame) : Step :=
  match t.predict nonterminal (Lookahead.ofRest m.rest) with
  | none => .halt (some (m.noPrediction nonterminal))
  | some p =>
    if p.head ∈ opened then .halt (some (.leftRecursion p.head m.position))
    else .next (.expand p.head p.body) { m with stack := expansion p opened ++ below }

def step (t : ParseTable) (m : Machine) : Step :=
  match m.stack with
  | [] => .halt (if m.rest = [] then none else some (.incompleteDerivation m.position))
  | ⟨.terminal a, _⟩ :: below => m.matchTop a below
  | ⟨.nonterminal n, opened⟩ :: below => expandTop t m n opened below

/-! ## why a run ends -/

/-- an upper bound on the length of a predicted body -/
def breadth (t : ParseTable) : Nat := total (·.production.body.length) t.selections

/-- how many productions have a head that is not open -/
def unopened (t : ParseTable) (opened : List String) : Nat :=
  (t.selections.filter (·.production.head ∉ opened)).length

def weight (t : ParseTable) (f : Frame) : Nat := Nat.pow (breadth t + 1) (unopened t f.opened)

def load (t : ParseTable) (stack : List Frame) : Nat := total (weight t) stack

theorem length_body_le_breadth {t : ParseTable} {s : Selection} (h : s ∈ t.selections) :
    s.production.body.length ≤ breadth t :=
  le_total_of_mem (fun s => s.production.body.length) h

theorem unopened_cons_lt {t : ParseTable} {s : Selection} (h : s ∈ t.selections)
    {opened : List String} (hs : s.production.head ∉ opened) :
    unopened t (s.production.head :: opened) < unopened t opened := by
  have e : t.selections.filter (·.production.head ∉ s.production.head :: opened) =
      (t.selections.filter (·.production.head ∉ opened)).filter
        (·.production.head ≠ s.production.head) := by
    rw [List.filter_filter]
    apply List.filter_congr
    intro x _
    simp [not_or]
  unfold unopened
  rw [e]
  apply List.length_filter_lt_length_iff_exists.mpr
  exact ⟨s, by simp [h, hs], by simp⟩

theorem load_append (t : ParseTable) (a b : List Frame) :
    load t (a ++ b) = load t a + load t b :=
  total_append _ a b

theorem load_expansion (t : ParseTable) (p : Production) (opened : List String) :
    load t (expansion p opened) =
      p.body.length * Nat.pow (breadth t + 1) (unopened t (p.head :: opened)) := by
  unfold load expansion
  rw [total_map]
  exact total_const (Nat.pow (breadth t + 1) (unopened t (p.head :: opened))) p.body

theorem load_expansion_lt {t : ParseTable} {s : Selection} (h : s ∈ t.selections)
    {opened : List String} (hs : s.production.head ∉ opened) (x : Symbol) :
    load t (expansion s.production opened) < weight t ⟨x, opened⟩ := by
  rw [load_expansion]
  have h1 := unopened_cons_lt h hs
  have h2 := length_body_le_breadth h
  have h3 : (breadth t + 1) ^ (unopened t (s.production.head :: opened) + 1) ≤
      (breadth t + 1) ^ unopened t opened := Nat.pow_le_pow_right (by omega) h1
  have h4 : 0 < (breadth t + 1) ^ unopened t (s.production.head :: opened) :=
    Nat.pow_pos (by omega)
  have h5 := Nat.mul_le_mul_right ((breadth t + 1) ^ unopened t (s.production.head :: opened)) h2
  rw [Nat.pow_succ, Nat.mul_comm, Nat.succ_mul] at h3
  show s.production.body.length * (breadth t + 1) ^ unopened t (s.production.head :: opened) <
    (breadth t + 1) ^ unopened t opened
  omega

/-- a step reads a token or makes the stack lighter -/
theorem decreases_of_next {t : ParseTable} {m m' : Machine} {a : Action}
    (h : m.step t = .next a m') :
    m'.rest.length < m.rest.length ∨
      m'.rest.length = m.rest.length ∧ load t m'.stack < load t m.stack := by
  obtain ⟨stack, position, rest⟩ := m
  unfold step at h
  split at h
  · cases h
  · unfold matchTop at h
    split at h
    · cases h
    · split at h
      · cases h
        rename_i hr _
        have hr : rest = _ := hr
        left
        simp [hr]
      · cases h
  · rename_i n opened below hs
    have hs : stack = _ := hs
    unfold expandTop at h
    split at h
    · cases h
    · split at h
      · cases h
      · rename_i p hp hopen
        cases h
        right
        obtain ⟨hn, s, hmem, rfl⟩ := ParseTable.selection_of_predict hp
        refine ⟨rfl, ?_⟩
        show load t (expansion s.production opened ++ below) < load t stack
        rw [hs, load_append]
        have := load_expansion_lt hmem hopen (.nonterminal n)
        show _ < weight t ⟨.nonterminal n, opened⟩ + load t below
        omega

/-! ## runs -/

/-- the actions from a state on, and how they end -/
def run (t : ParseTable) (m : Machine) : Outcome :=
  match _h : m.step t with
  | .halt error =>
    ⟨[m.entry (match error with | none => .accept | some e => .reject e)], error, m.position⟩
  | .next a m' => (run t m').cons (m'.entry a)
termination_by (m.rest.length, load t m.stack)
decreasing_by
  rcases decreases_of_next _h with h | ⟨h1, h2⟩
  · exact Prod.Lex.left _ _ h
  · rw [h1]
    exact Prod.Lex.right _ h2

end Machine

end SpanishSyntax.Parse

namespace SpanishSyntax

open Parse

/-- parses a sequence of terminals -/
def ParseTable.parse (t : ParseTable) (tokens : List String) : Outcome :=
  let m := Machine.initial t.grammar.start tokens
  (m.run t).cons (m.entry .start)

end SpanishSyntax
