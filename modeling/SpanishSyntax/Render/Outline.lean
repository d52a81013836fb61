import SpanishSyntax.Analysis
import SpanishSyntax.Decimal.Layout
import SpanishSyntax.Text.Column
import SpanishSyntax.Tree.Drawing

/-!
# An analysis as plain text

Meant for reading on a terminal: the words and their categories, whether the sentence was
accepted, the drawn trees, the derivation and the trace with numbered lines, and what the
knowledge base has to say, if anything.
-/

namespace SpanishSyntax

namespace LexicalError

/-- words are counted from one -/
def text (e : LexicalError) : String :=
  "lexical error: '" ++ e.word ++ "' (word " ++ toString (e.position + 1) ++ ")" ++
    match e.character with
    | some c => " contains '" ++ c.toString ++ "'"
    | none => ""

end LexicalError

namespace Semantic

def ConceptMatch.line (m : ConceptMatch) : String :=
  "  " ++ m.concept ++ " (" ++ m.score.text .plain ++ ")"

def Relation.line (r : Relation) : String := "  " ++ r.source ++ " ~ " ++ r.target

/-- nothing if no concept was found -/
def Report.outline (r : Report) : List String :=
  if r.isEmpty then []
  else ["", "concepts:"] ++ r.concepts.map ConceptMatch.line ++ r.relations.map Relation.line ++
    if r.suggestions.isEmpty then [] else ["suggestions: " ++ Text.joined ", " r.suggestions]

end Semantic

namespace Analysis

def statusText (a : Analysis) : String :=
  match a.outcome.error with
  | none => "status: accepted"
  | some e => "status: rejected: " ++ e.message

def headLines (a : Analysis) : List String :=
  ["sentence: " ++ a.sentence, "tokenization: " ++ a.tokenization,
    "categories: " ++ Text.joined " " a.categories] ++
  (a.lexicalError.map LexicalError.text).toList ++ [a.statusText]

def treeLines (a : Analysis) : List String :=
  ["", if a.accepted then "tree:" else "tree (partial):"] ++ a.tree.drawing ++
    match a.fallback with
    | some t => ["", "fallback:"] ++ t.drawing
    | none => []

def derivationLines (a : Analysis) : List String :=
  ["", "derivation:"] ++ a.tree.derivation.map ("  " ++ ·)

def traceLines (a : Analysis) : List String :=
  ["", "trace:"] ++ Text.numberedLines 1 (a.outcome.steps.map Parse.TraceStep.text)

def outline (a : Analysis) : String :=
  Text.unlines (a.headLines ++ a.treeLines ++ a.derivationLines ++ a.traceLines ++
    a.report.outline)

end Analysis

end SpanishSyntax
