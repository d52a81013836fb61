import SpanishSyntax.Grammar.Follow

/-!
# Passes that note what they change

The tables of `Grammar.firstTable` and `Grammar.followTable` settle by comparing each round with the
one before, within a number of rounds.  Here a pass enlarges the sets one insertion after the other
and notes whether any of them added something, and passes go on until one notes nothing, however
many that takes.  `WhileChanged pass x y` says that from `x` they come to an end, in `y`.
-/

namespace SpanishSyntax

/-- a value, and whether what made it changed anything -/
@[ext]
structure Noted (α : Type) where
  value : α
  changed : Bool
  deriving DecidableEq, Repr

namespace Noted

variable {α β : Type}

def same (x : α) : Noted α := ⟨x, false⟩

def andThen (m : Noted α) (step : α → Noted α) : Noted α :=
  let n := step m.value
  ⟨n.value, m.changed || n.changed⟩

/-- one step for each element of the list, from left to right -/
def each (step : β → α → Noted α) : List β → α → Noted α
  | [], x => same x
  | b :: l, x => (step b x).andThen (each step l)

end Noted

/-- passes until one notes nothing -/
inductive WhileChanged {α : Type} (pass : α → Noted α) : α → α → Prop where
  | stop {x : α} (h : (pass x).changed = false) : WhileChanged pass x (pass x).value
  | again {x y : α} (h : (pass x).changed = true) (rest : WhileChanged pass (pass x).value y) :
      WhileChanged pass x y

namespace Ascending

variable {α : Type} [LT α] [DecidableLT α] [DecidableEq α]

def noteInsert (a : α) (l : List α) : Noted (List α) := ⟨insert a l, a ∉ l⟩

def noteUnion (m l : List α) : Noted (List α) := Noted.each noteInsert m l

end Ascending

/-- what `t` brings is inserted into `s` -/
def FirstSet.merge (s t : FirstSet) : Noted FirstSet :=
  let n := Ascending.noteUnion t.terminals s.terminals
  if t.nullable && !s.nullable then ⟨⟨n.value, true⟩, true⟩ else ⟨⟨n.value, s.nullable⟩, n.changed⟩

/-- the step is done to the set under the name, if there is one -/
def SetTable.note {σ : Type} (name : String) (step : σ → Noted σ) :
    List (String × σ) → Noted (List (String × σ))
  | [] => .same []
  | (n, s) :: t =>
    if n = name then
      let r := step s
      ⟨(n, r.value) :: t, r.changed⟩
    else
      let r := note name step t
      ⟨(n, s) :: r.value, r.changed⟩

def FollowTable.noteWalk (firsts : FirstTable) (head : String) :
    List Symbol → FollowTable → Noted FollowTable
  | [], t => .same t
  | .terminal _ :: rest, t => noteWalk firsts head rest t
  | .nonterminal n :: rest, t =>
    (SetTable.note n (Ascending.noteUnion (t.after firsts head rest)) t).andThen
      (noteWalk firsts head rest)

namespace Grammar

def firstPass (g : Grammar) : FirstTable → Noted FirstTable :=
  Noted.each (fun p t => SetTable.note p.head (·.merge (t.firstOf p.body)) t) g.productions

/-- the loop from empty sets ends in `t` -/
def FirstLoop (g : Grammar) (t : FirstTable) : Prop :=
  WhileChanged g.firstPass (g.nonterminals.map fun n => (n, FirstSet.empty)) t

def followPass (g : Grammar) (firsts : FirstTable) : FollowTable → Noted FollowTable :=
  Noted.each (fun p => FollowTable.noteWalk firsts p.head p.body) g.productions

def FollowLoop (g : Grammar) (firsts : FirstTable) (t : FollowTable) : Prop :=
  WhileChanged (g.followPass firsts) g.followSeed t

end Grammar

end SpanishSyntax
