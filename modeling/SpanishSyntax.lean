import SpanishSyntax.Text.Visible
import SpanishSyntax.Text.Lowercase
import SpanishSyntax.Text.WordCharacter
import SpanishSyntax.Text.Blank
import SpanishSyntax.Text.Pieces
import SpanishSyntax.Text.Parser
import SpanishSyntax.Fixpoint
import SpanishSyntax.Entries
import SpanishSyntax.Automaton.Run
import SpanishSyntax.Automaton.StateMap
import SpanishSyntax.Automaton.Stock
import SpanishSyntax.Grammar.RuleText
import SpanishSyntax.Grammar.RuleParser
import SpanishSyntax.Grammar.Table
import SpanishSyntax.Grammar.FilledTable
import SpanishSyntax.Parse.Machine
import SpanishSyntax.Parse.StackRun
import SpanishSyntax.Tree.Replay
import SpanishSyntax.Tree.Arena
import SpanishSyntax.Tree.Heuristic
import SpanishSyntax.Tree.Drawing
import SpanishSyntax.Tree.Markup
import SpanishSyntax.Tree.TagWriter
import SpanishSyntax.Lexicon.Segment
import SpanishSyntax.Decimal.Layout
import SpanishSyntax.Lexicon.Pattern.Reader
import SpanishSyntax.Lexicon.Classifier
import SpanishSyntax.Semantic.Report
import SpanishSyntax.Config.KeyPath
import SpanishSyntax.Config.Defaults
import SpanishSyntax.Config.Layers
import SpanishSyntax.Analysis
import SpanishSyntax.Render.Format
import SpanishSyntax.Main
import SpanishSyntax.Proofs.Fixpoint
import SpanishSyntax.Proofs.Ascending
import SpanishSyntax.Proofs.Grammar.Derivation
import SpanishSyntax.Proofs.Grammar.First
import SpanishSyntax.Proofs.Grammar.Follow
import SpanishSyntax.Proofs.Grammar.FollowExact
import SpanishSyntax.Proofs.Grammar.LeftRecursion
import SpanishSyntax.Proofs.Grammar.Reading
import SpanishSyntax.Proofs.Grammar.Table
import SpanishSyntax.Proofs.Grammar.LeftRecursionExact
import SpanishSyntax.Proofs.Grammar.Passes
import SpanishSyntax.Proofs.Grammar.Worklist
import SpanishSyntax.Proofs.Grammar.Cells
import SpanishSyntax.Proofs.Parse.Guard
import SpanishSyntax.Proofs.Parse.Acceptance
import SpanishSyntax.Proofs.Parse.Language
import SpanishSyntax.Proofs.Parse.Path
import SpanishSyntax.Proofs.Parse.Earliest
import SpanishSyntax.Proofs.Parse.EndOfInput
import SpanishSyntax.Proofs.Parse.Record
import SpanishSyntax.Proofs.Parse.StackRun
import SpanishSyntax.Proofs.Tree.Growth
import SpanishSyntax.Proofs.Tree.Expansion
import SpanishSyntax.Proofs.Tree.Replay
import SpanishSyntax.Proofs.Tree.Planted
import SpanishSyntax.Proofs.Tree.Arena
import SpanishSyntax.Proofs.Tree.Words
import SpanishSyntax.Proofs.Tree.Preorder
import SpanishSyntax.Proofs.Tree.Attachment
import SpanishSyntax.Proofs.Tree.Markup
import SpanishSyntax.Proofs.Tree.Drawing
import SpanishSyntax.Proofs.Text.Classes
import SpanishSyntax.Proofs.Text.Pieces
import SpanishSyntax.Proofs.Text.Entity
import SpanishSyntax.Proofs.Automaton.Blueprint
import SpanishSyntax.Proofs.Automaton.Clauses
import SpanishSyntax.Proofs.Automaton.StateMap
import SpanishSyntax.Proofs.Automaton.Consistent
import SpanishSyntax.Proofs.Automaton.Run
import SpanishSyntax.Proofs.Automaton.Stock
import SpanishSyntax.Proofs.Lexicon.Alphabet
import SpanishSyntax.Proofs.Lexicon.Segment
import SpanishSyntax.Proofs.Lexicon.Kinds
import SpanishSyntax.Proofs.Lexicon.Munch
import SpanishSyntax.Proofs.Lexicon.Regexes
import SpanishSyntax.Proofs.Lexicon.Pattern.Matching
import SpanishSyntax.Proofs.Lexicon.Pattern.Members
import SpanishSyntax.Proofs.Lexicon.Pattern.Constructs
import SpanishSyntax.Proofs.Lexicon.Pattern.Reading
import SpanishSyntax.Proofs.Lexicon.Pattern.Standard
import SpanishSyntax.Proofs.Lexicon.Rules
import SpanishSyntax.Proofs.Grammar.RuleText
import SpanishSyntax.Proofs.Grammar.LineGrammar
import SpanishSyntax.Proofs.Grammar.RuleParser
import SpanishSyntax.Proofs.Grammar.Reprint
import SpanishSyntax.Proofs.Analysis.Alignment
import SpanishSyntax.Proofs.Analysis.Lexemes
import SpanishSyntax.Proofs.Analysis.LexicalError
import SpanishSyntax.Proofs.Grammar.Validation
import SpanishSyntax.Proofs.Entries
import SpanishSyntax.Proofs.Grammar.FilledTable
import SpanishSyntax.Proofs.Semantic.Report
import SpanishSyntax.Proofs.Semantic.Suggestions
import SpanishSyntax.Proofs.Semantic.Stem
