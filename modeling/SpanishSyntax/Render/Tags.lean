import SpanishSyntax.Analysis
import SpanishSyntax.Decimal.Layout
import SpanishSyntax.Tree.Markup

/-!
# An analysis as nested tags

The sentence, its words, the trees, the derivation and the concepts, each in a tag of its own.
-/

namespace SpanishSyntax

open Markup

/-- a word with its category and type, and a mark if it is not valid -/
def Lexicon.Token.markup (level : Nat) (t : Lexicon.Token) : String :=
  textTag level "token" ([("category", t.category), ("type", t.type.tag)] ++
    if t.valid then [] else [("valid", "false")]) t.lexeme

def Semantic.ConceptMatch.markup (level : Nat) (m : Semantic.ConceptMatch) : String :=
  textTag level "concept" [("score", m.score.text .plain)] m.concept

/-- one tag around a list of tags -/
def listTag {α : Type} (level : Nat) (tag : String) (f : Nat → α → String) (l : List α) : String :=
  around level tag [] (String.join (l.map (f (level + 1))))

namespace Analysis

def status (a : Analysis) : String := if a.accepted then "accepted" else "rejected"

def errorTag (a : Analysis) : String :=
  match a.outcome.error with
  | some e => textTag 1 "error" [] e.message
  | none => ""

def fallbackTag (a : Analysis) : String :=
  match a.fallback with
  | some t => t.markup 1 "fallback"
  | none => ""

def conceptTag (a : Analysis) : String :=
  if a.report.isEmpty then ""
  else listTag 1 "concepts" Semantic.ConceptMatch.markup a.report.concepts

def markup (a : Analysis) : String :=
  around 0 "analysis" [("status", a.status)] <|
    textTag 1 "sentence" [] a.sentence ++ listTag 1 "tokens" Lexicon.Token.markup a.tokens ++
      a.errorTag ++ a.tree.markup 1 "tree" ++ a.fallbackTag ++
      listTag 1 "derivation" (fun level line => textTag level "form" [] line) a.tree.derivation ++
      a.conceptTag

end Analysis

end SpanishSyntax
