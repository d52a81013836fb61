import SpanishSyntax.Decimal.Double
import SpanishSyntax.Text.Lowercase

/-!
# Concepts and their scores

Concepts are scored against words and stems, all in lower case.  The scores count half points:

* a word that equals the name: 6; otherwise, one that equals a synonym: 4
* a stem in the name or around it: 2
* a stem in a synonym or around it: 1 for each synonym

They stand in a list beside the base while the words and then the stems are gone through.
`KnowledgeBase.rank` lists what scored, highest first, equal scores in the order of the base.
-/

namespace SpanishSyntax.Semantic

structure Concept where
  name : String
  synonyms : List String
  associations : List String
  description : String
  deriving DecidableEq, Repr

/-- equal in lower case -/
def sameWord (a b : String) : Bool := Text.lowercase a == Text.lowercase b

def Concept.isAssociatedWith (c : Concept) (other : String) : Bool :=
  c.associations.any (sameWord · other)

abbrev KnowledgeBase := List Concept

def KnowledgeBase.get? (kb : KnowledgeBase) (name : String) : Option Concept :=
  kb.find? (·.name = name)

/-! ## scores -/

/-- does `s` occur in the text -/
def occursIn (s : List Char) : List Char → Bool
  | [] => s.isEmpty
  | c :: cs => s.isPrefixOf (c :: cs) || occursIn s cs

/-- does one of the two contain the other -/
def overlap (a b : String) : Bool :=
  occursIn a.toList b.toList || occursIn b.toList a.toList

/-- a concept's name and synonyms in lower case -/
structure Terms where
  name : String
  synonyms : List String
  deriving DecidableEq, Repr

def Concept.terms (c : Concept) : Terms :=
  ⟨Text.lowercase c.name, c.synonyms.map Text.lowercase⟩

/-- the half points of each concept, none before the first -/
abbrev Scores := List (Option Nat)

namespace Scores

def add (points : Nat) (scores : Scores) (index : Nat) : Scores :=
  scores.modify index fun s => some (s.getD 0 + points)

/-- a name counts for more than a synonym, and a word counts once -/
def addWord (word : String) (scores : Scores) (entry : Terms × Nat) : Scores :=
  if entry.1.name = word then add 6 scores entry.2
  else if word ∈ entry.1.synonyms then add 4 scores entry.2
  else scores

def addSynonym (stem : String) (index : Nat) (scores : Scores) (synonym : String) : Scores :=
  if overlap synonym stem then add 1 scores index else scores

def addStem (stem : String) (scores : Scores) (entry : Terms × Nat) : Scores :=
  entry.1.synonyms.foldl (addSynonym stem entry.2)
    (if overlap entry.1.name stem then add 2 scores entry.2 else scores)

def ofWord (base : List Terms) (scores : Scores) (word : String) : Scores :=
  base.zipIdx.foldl (addWord word) scores

/-- an empty stem would occur in every name -/
def ofStem (base : List Terms) (scores : Scores) (stem : String) : Scores :=
  if stem = "" then scores else base.zipIdx.foldl (addStem stem) scores

def ofTexts (base : List Terms) (words stems : List String) : Scores :=
  stems.foldl (ofStem base) (words.foldl (ofWord base) (List.replicate base.length none))

end Scores

structure ConceptMatch where
  concept : String
  halfPoints : Nat
  deriving DecidableEq, Repr

/-- half points are exact in binary -/
def ConceptMatch.score (m : ConceptMatch) : Double := Double.ofRatio m.halfPoints 2

/-- puts a match behind all that score as much or more -/
def insertRanked (m : ConceptMatch) : List ConceptMatch → List ConceptMatch
  | [] => [m]
  | x :: xs => if x.halfPoints < m.halfPoints then m :: x :: xs else x :: insertRanked m xs

/-- what scored, in the order of the base -/
def KnowledgeBase.scored (kb : KnowledgeBase) (scores : Scores) : List ConceptMatch :=
  (kb.zip scores).filterMap fun entry => entry.2.map fun points => ⟨entry.1.name, points⟩

def KnowledgeBase.rank (kb : KnowledgeBase) (words stems : List String) : List ConceptMatch :=
  let scores := Scores.ofTexts (kb.map Concept.terms) (words.map Text.lowercase)
    (stems.map Text.lowercase)
  (kb.scored scores).foldl (fun ranked m => insertRanked m ranked) []

end SpanishSyntax.Semantic
