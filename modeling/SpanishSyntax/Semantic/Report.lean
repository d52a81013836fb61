import SpanishSyntax.Semantic.Concept
import SpanishSyntax.Semantic.Stem
import SpanishSyntax.Semantic.Stopwords

/-!
# Semantic reports

The words of a sentence without its stopwords, their stems, the concepts they evoke, the
relations between these concepts, and associated concepts to suggest.
-/

namespace SpanishSyntax.Semantic

structure Relation where
  source : String
  target : String
  deriving DecidableEq, Repr

structure Report where
  relevant : List String
  stems : List String
  concepts : List ConceptMatch
  relations : List Relation
  suggestions : List String
  deriving DecidableEq, Repr

def Report.isEmpty (r : Report) : Bool := r.concepts.isEmpty

structure Matcher where
  stopwords : Stopwords
  knowledge : KnowledgeBase
  deriving DecidableEq, Repr

/-- either lists the other -/
def related (a b : Concept) : Bool := a.isAssociatedWith b.name || b.isAssociatedWith a.name

/-- the related pairs, each from the earlier to the later -/
def relationsAmong : List Concept → List Relation
  | [] => []
  | c :: cs => ((cs.filter (related c)).map fun d => ⟨c.name, d.name⟩) ++ relationsAmong cs

def isMatched (found : List Concept) (name : String) : Bool := found.any (sameWord ·.name name)

/-- each text once, where it comes first -/
def distinct (seen : List String) : List String → List String
  | [] => []
  | s :: ss => if s ∈ seen then distinct seen ss else s :: distinct (s :: seen) ss

def suggestionsFor (kb : KnowledgeBase) (found : List Concept) : List String :=
  distinct [] ((kb.filter (isMatched found ·.name)).flatMap fun c =>
    c.associations.filter (!isMatched found ·))

namespace Matcher

def report (m : Matcher) (words : List String) : Report :=
  let relevant := words.filter (!m.stopwords.contains ·)
  let stems := relevant.map stem
  let concepts := m.knowledge.rank relevant stems
  let found := concepts.filterMap (m.knowledge.get? ·.concept)
  ⟨relevant, stems, concepts, relationsAmong found, suggestionsFor m.knowledge found⟩

end Matcher

end SpanishSyntax.Semantic
