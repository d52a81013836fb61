import SpanishSyntax.Ascending
import SpanishSyntax.Text.Lowercase

/-!
# Stopwords

A set of words that carry no meaning of their own, kept and looked up in lower case.
-/

namespace SpanishSyntax.Semantic

structure Stopwords where
  words : List String
  deriving DecidableEq, Repr

namespace Stopwords

def ofList (ws : List String) : Stopwords := ⟨Ascending.ofList (ws.map Text.lowercase)⟩

def contains (s : Stopwords) (word : String) : Bool := Text.lowercase word ∈ s.words

def size (s : Stopwords) : Nat := s.words.length

end Stopwords

end SpanishSyntax.Semantic
