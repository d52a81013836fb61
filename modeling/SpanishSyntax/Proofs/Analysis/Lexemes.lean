import SpanishSyntax.Analysis
import SpanishSyntax.Proofs.Lexicon.Segment

/-!
# An analysis depends only on the lexemes

A token is made of the text and the index of a lexeme, and the rest of an analysis is made of the
tokens.  Texts of lexemes with a space between them are cut into the same lexemes again, so their
analysis differs from that of the sentence in the sentence alone (`Analyzer.analyze_joined`).
-/

namespace SpanishSyntax

open Lexicon (Lexeme segment)

theorem Lexicon.Classifier.tokenize_congr (c : Classifier) {s t : String}
    (h : (segment t).map Lexeme.core = (segment s).map Lexeme.core) :
    c.tokenize t = c.tokenize s := by
  have hcore : ∀ s, c.tokenize s =
      ((segment s).map Lexeme.core).map fun l => c.classify l.1 l.2.2 := fun s => by
    rw [List.map_map]
    rfl
  rw [hcore, hcore, h]

namespace Analyzer

theorem analyze_congr (a : Analyzer) {s t : String}
    (h : a.classifier.tokenize t = a.classifier.tokenize s) :
    a.analyze t = { a.analyze s with sentence := t } := by
  unfold analyze
  rw [h]

/-- **Analysis depends only on the lexemes**, so it does not matter what was between them. -/
theorem analyze_joined (a : Analyzer) (s : String) :
    let t := Text.joined " " ((segment s).map (·.text))
    (segment t).map Lexeme.core = (segment s).map Lexeme.core ∧
      a.analyze t = { a.analyze s with sentence := t } ∧
      (a.analyze t).tokenization = (a.analyze s).tokenization ∧
      (a.analyze t).categories = (a.analyze s).categories ∧
      (a.analyze t).lexicalError = (a.analyze s).lexicalError := by
  intro t
  have hcore : (segment t).map Lexeme.core = (segment s).map Lexeme.core :=
    Lexicon.core_segment_joined s
  have hanalyze := a.analyze_congr (a.classifier.tokenize_congr hcore)
  refine ⟨hcore, hanalyze, ?_, ?_, ?_⟩ <;> rw [hanalyze] <;> rfl

end Analyzer

end SpanishSyntax
