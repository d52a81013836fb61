import SpanishSyntax.Ascending
import SpanishSyntax.Grammar.Basic

/-!
# Declarations of grammars

A declaration names the symbols and lists the rules by bare names.  `Declaration.build` checks
it and tags each name with its kind.  The checks come in this order: no name of both kinds, a
known start, rule by rule a known head and known body names, a rule for every nonterminal.
-/

namespace SpanishSyntax

structure Declaration where
  start : String
  nonterminals : List String
  terminals : List String
  rules : List (String × List String)
  deriving DecidableEq, Repr

namespace Declaration

inductive Item where
  | nonterminal (name : String)
  | terminal (name : String)
  | rule (head : String) (body : List String)
  deriving DecidableEq, Repr

inductive Defect where
  | overlappingSymbol (name : String)
  | unknownStart (name : String)
  | unknownHead (name : String)
  | unknownSymbol (head name : String)
  | noProductions (name : String)
  deriving DecidableEq, Repr

def Defect.message : Defect → String
  | .overlappingSymbol n => s!"symbol '{n}' is declared both as terminal and nonterminal"
  | .unknownStart n => s!"start symbol '{n}' is not a nonterminal"
  | .unknownHead n => s!"production head '{n}' is not a nonterminal"
  | .unknownSymbol h n => s!"production for '{h}' uses undeclared symbol '{n}'"
  | .noProductions n => s!"nonterminal '{n}' has no productions"

def empty (start : String) : Declaration := ⟨start, [], [], []⟩

/-- a name declared again changes nothing -/
def add (d : Declaration) : Item → Declaration
  | .nonterminal n =>
    if n ∈ d.nonterminals then d else { d with nonterminals := d.nonterminals ++ [n] }
  | .terminal n => { d with terminals := Ascending.insert n d.terminals }
  | .rule head body => { d with rules := d.rules ++ [(head, body)] }

def ofItems (start : String) (items : List Item) : Declaration := items.foldl add (empty start)

theorem ofItems_append (start : String) (a b : List Item) :
    ofItems start (a ++ b) = b.foldl add (ofItems start a) := by
  simp [ofItems]

/-! ## checking -/

def tag? (d : Declaration) (name : String) : Option Symbol :=
  if name ∈ d.terminals then some (.terminal name)
  else if name ∈ d.nonterminals then some (.nonterminal name)
  else none

def tagBody (d : Declaration) (head : String) : List String → Except Defect (List Symbol)
  | [] => .ok []
  | n :: ns =>
    match d.tag? n with
    | none => .error (.unknownSymbol head n)
    | some s => (d.tagBody head ns).map (s :: ·)

def tagRule (d : Declaration) (rule : String × List String) : Except Defect Production :=
  if rule.1 ∈ d.nonterminals then (d.tagBody rule.1 rule.2).map fun body => ⟨rule.1, body⟩
  else .error (.unknownHead rule.1)

def tagRules (d : Declaration) : List (String × List String) → Except Defect (List Production)
  | [] => .ok []
  | r :: rs =>
    match d.tagRule r with
    | .error e => .error e
    | .ok p => (d.tagRules rs).map (p :: ·)

def build (d : Declaration) : Except Defect Grammar :=
  match d.nonterminals.find? (· ∈ d.terminals) with
  | some n => .error (.overlappingSymbol n)
  | none =>
    if d.start ∉ d.nonterminals then .error (.unknownStart d.start)
    else match d.tagRules d.rules with
      | .error e => .error e
      | .ok ps =>
        match d.nonterminals.find? fun n => !ps.any (·.head = n) with
        | some n => .error (.noProductions n)
        | none => .ok ⟨d.start, d.nonterminals, d.terminals, ps⟩

end Declaration

end SpanishSyntax
