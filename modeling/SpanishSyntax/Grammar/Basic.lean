import SpanishSyntax.Text.Pieces

/-!
# Context-free grammars

A symbol is tagged as terminal or nonterminal when the grammar is built, so nothing later has to
guess what a bare name means.  A production with an empty body derives the empty sequence,
written `ε`.
-/

namespace SpanishSyntax

inductive Symbol where
  | terminal (name : String)
  | nonterminal (name : String)
  deriving DecidableEq, Repr

namespace Symbol

def name : Symbol → String
  | terminal n => n
  | nonterminal n => n

def isTerminal : Symbol → Bool
  | terminal _ => true
  | nonterminal _ => false

/-- the symbols of a sentential form, `ε` if there are none -/
def sequenceText : List Symbol → String
  | [] => "ε"
  | s :: ss => Text.joined " " ((s :: ss).map Symbol.name)

end Symbol

structure Production where
  head : String
  body : List Symbol
  deriving DecidableEq, Repr

namespace Production

def bodyText (p : Production) : String := Symbol.sequenceText p.body

def text (p : Production) : String := p.head ++ " → " ++ p.bodyText

end Production

/-- `nonterminals` are in the order of their declaration, `terminals` ascend -/
structure Grammar where
  start : String
  nonterminals : List String
  terminals : List String
  productions : List Production
  deriving DecidableEq, Repr

namespace Grammar

/-- the symbol of that name, if the grammar declares one -/
def symbol? (g : Grammar) (name : String) : Option Symbol :=
  if name ∈ g.terminals then some (.terminal name)
  else if name ∈ g.nonterminals then some (.nonterminal name)
  else none

end Grammar

end SpanishSyntax
