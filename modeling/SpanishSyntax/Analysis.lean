import SpanishSyntax.Config.Settings
import SpanishSyntax.Grammar.RuleText
import SpanishSyntax.Lexicon.Classifier
import SpanishSyntax.Parse.Machine
import SpanishSyntax.Semantic.Report
import SpanishSyntax.Tree.Heuristic
import SpanishSyntax.Tree.Replay

/-!
# Sentence analysis

A sentence is cut into words, the words are classified, and their categories are parsed.  The
tree replays the parse, with the words that were consumed at its leaves; when the categories are
not a sentence of the grammar, a second tree is guessed from them.  The identifiers among the
words are matched with the knowledge base.  An `Analyzer` holds what is built once, from
settings, and is the same for every sentence.
-/

namespace SpanishSyntax

open Config (Settings)
open Lexicon (Classifier Token)

/-- the first word with a character outside the alphabet -/
structure LexicalError where
  word : String
  position : Nat
  character : Option Char
  deriving DecidableEq, Repr

/-- `fallback` is the guessed tree of a rejected sentence -/
structure Analysis where
  sentence : String
  tokens : List Token
  outcome : Parse.Outcome
  tree : SyntaxTree
  fallback : Option SyntaxTree
  report : Semantic.Report
  deriving Repr

namespace Analysis

def tokenization (a : Analysis) : String := Lexicon.tokenization a.tokens

def categories (a : Analysis) : List String := a.tokens.map (·.category)

def lexicalError (a : Analysis) : Option LexicalError :=
  (Lexicon.firstInvalid a.tokens).map fun t => ⟨t.lexeme, t.position, t.errorChar⟩

def accepted (a : Analysis) : Bool := a.outcome.accepted

/-- a sentence of the grammar, and every word in the alphabet -/
def isValid (a : Analysis) : Bool := a.lexicalError.isNone && a.accepted

end Analysis

structure Analyzer where
  classifier : Classifier
  table : ParseTable
  matcher : Semantic.Matcher

namespace Analyzer

/-- why settings give no analyzer, in the order in which its parts are built -/
inductive Fault where
  | grammar (e : Grammar.TextError)
  | table (r : ParseTable.Refusal)
  | lexicon (f : Lexicon.Fault)
  deriving DecidableEq, Repr

def Fault.message : Fault → String
  | .grammar e => e.message
  | .table r => r.message
  | .lexicon f => f.message

def tableOf (g : Config.GrammarSettings) : Except Fault ParseTable :=
  match Grammar.ofText g.start g.terminals g.rules with
  | .error e => .error (.grammar e)
  | .ok grammar =>
    match ParseTable.build grammar g.conflictPolicy with
    | .error r => .error (.table r)
    | .ok t => .ok t

/-- the patterns of the lexicon are compiled by `regexes` -/
def ofSettings (regexes : Lexicon.Regexes) (s : Settings) : Except Fault Analyzer :=
  match tableOf s.grammar with
  | .error f => .error f
  | .ok table =>
    match s.lexicon.classifier regexes with
    | .error f => .error (.lexicon f)
    | .ok classifier =>
      .ok ⟨classifier, table, ⟨.ofList s.semantic.stopwords, s.semantic.concepts⟩⟩

def analyze (a : Analyzer) (sentence : String) : Analysis :=
  let tokens := a.classifier.tokenize sentence
  let words := tokens.map (·.lexeme)
  let outcome := a.table.parse (tokens.map (·.category))
  { sentence := sentence
    tokens := tokens
    outcome := outcome
    tree := (SyntaxTree.ofTrace outcome.steps).attachLexemes (words.take outcome.consumed)
    fallback :=
      if outcome.accepted then none
      else some (SyntaxTree.guess (tokens.map fun t => (t.lexeme, t.category)))
    report := a.matcher.report ((tokens.filter (·.type = .identifier)).map (·.lexeme)) }

theorem tokens_analyze (a : Analyzer) (s : String) :
    (a.analyze s).tokens = a.classifier.tokenize s := rfl

end Analyzer

end SpanishSyntax
