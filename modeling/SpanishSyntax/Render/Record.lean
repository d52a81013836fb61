import SpanishSyntax.Analysis
import SpanishSyntax.Render.Document

/-!
# An analysis as a document

Every part of an analysis becomes a record.  A variant is a record whose first field names it;
the word of a tree node is left out where there is none.
-/

namespace SpanishSyntax

open Render (Document)

def Symbol.document : Symbol → Document
  | .terminal n => .record [("kind", .text "terminal"), ("name", .text n)]
  | .nonterminal n => .record [("kind", .text "non_terminal"), ("name", .text n)]

/-! ## traces -/

namespace Parse

def Rejection.document : Rejection → Document
  | .terminalMismatch e f n =>
    .record [("reason", .text "expected_terminal_mismatch"), ("expected", .text e),
      ("found", .text f), ("position", .natural n)]
  | .noProduction x l n =>
    .record [("reason", .text "no_production_for_lookahead"), ("nonterminal", .text x),
      ("lookahead", .text l), ("position", .natural n)]
  | .incompleteDerivation n =>
    .record [("reason", .text "incomplete_derivation"), ("position", .natural n)]
  | .leftRecursion x n =>
    .record [("reason", .text "left_recursion"), ("nonterminal", .text x), ("position", .natural n)]

def Action.document : Action → Document
  | .start => .record [("kind", .text "start")]
  | .expand n body =>
    .record [("kind", .text "expand"), ("nonterminal", .text n),
      ("body", .ofList Symbol.document body)]
  | .matched t => .record [("kind", .text "match"), ("terminal", .text t)]
  | .accept => .record [("kind", .text "accept")]
  | .reject e => .record [("kind", .text "reject"), ("error", e.document)]

def TraceStep.document (s : TraceStep) : Document :=
  .record [("stack", .texts s.stack), ("remaining", .texts s.remaining),
    ("action", s.action.document)]

def Outcome.document (o : Outcome) : Document :=
  .record [("accepted", .bool o.accepted), ("steps", .ofList TraceStep.document o.steps),
    ("error", .ofOption Rejection.document o.error), ("consumed", .natural o.consumed)]

end Parse

/-! ## trees -/

namespace TreeNode

def wordField : Option String → List (String × Document)
  | some w => [("lexeme", .text w)]
  | none => []

mutual
def document : TreeNode → Document
  | ⟨l, t, v, w, cs⟩ =>
    .record ([("label", .text l), ("terminal", .bool t), ("level", .natural v)] ++ wordField w ++
      [("children", .list (documentList cs))])
def documentList : List TreeNode → List Document
  | [] => []
  | c :: cs => document c :: documentList cs
end

end TreeNode

def SyntaxTree.document (t : SyntaxTree) : Document :=
  .record [("root", t.root.document), ("derivation", .texts t.derivation),
    ("approximate", .bool t.approximate)]

/-! ## words -/

namespace Lexicon

def LexicalType.document : LexicalType → Document
  | .identifier => .text "identifier"
  | .int => .text "int"
  | .float => .text "float"
  | .punctuation => .text "punctuation"

def Token.document (t : Token) : Document :=
  .record [("lexeme", .text t.lexeme), ("position", .natural t.position),
    ("lexical_type", t.type.document), ("category", .text t.category), ("valid", .bool t.valid),
    ("error_char", .ofOption .character t.errorChar), ("constant", .ofOption .number t.constant),
    ("reserved", .bool t.reserved)]

end Lexicon

def LexicalError.document (e : LexicalError) : Document :=
  .record [("word", .text e.word), ("position", .natural e.position),
    ("character", .ofOption .character e.character)]

/-! ## meaning -/

namespace Semantic

def ConceptMatch.document (m : ConceptMatch) : Document :=
  .record [("concept", .text m.concept), ("score", .number m.score)]

def Relation.document (r : Relation) : Document :=
  .record [("from", .text r.source), ("to", .text r.target)]

def Report.document (r : Report) : Document :=
  .record [("relevant", .texts r.relevant), ("stems", .texts r.stems),
    ("concepts", .ofList ConceptMatch.document r.concepts),
    ("relations", .ofList Relation.document r.relations), ("suggestions", .texts r.suggestions)]

end Semantic

def Analysis.document (a : Analysis) : Document :=
  .record [("sentence", .text a.sentence), ("tokens", .ofList Lexicon.Token.document a.tokens),
    ("tokenization", .text a.tokenization),
    ("lexical_error", .ofOption LexicalError.document a.lexicalError),
    ("categories", .texts a.categories), ("parse", a.outcome.document), ("tree", a.tree.document),
    ("fallback", .ofOption SyntaxTree.document a.fallback), ("semantic", a.report.document)]

end SpanishSyntax
