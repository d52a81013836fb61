/-!
# Vocabularies

What a classifier is made from: the characters of the alphabet, the categories of words that no
rule names, and the rules, of which the first that fits a word decides.
-/

namespace SpanishSyntax.Lexicon

/-- `pattern` is the written form of a regular expression that has to match the whole word -/
structure CategoryRule where
  category : String
  words : List String
  pattern : Option String
  reserved : Bool
  deriving DecidableEq, Repr

structure Vocabulary where
  letters : String
  digits : String
  punctuation : String
  defaultCategory : String
  numberCategory : String
  punctuationCategory : String
  rules : List CategoryRule
  deriving DecidableEq, Repr

def Vocabulary.symbols (v : Vocabulary) : List Char :=
  v.letters.toList ++ v.digits.toList ++ v.punctuation.toList

end SpanishSyntax.Lexicon
