import Mathlib.Data.List.TakeWhile
import SpanishSyntax.Analysis
import SpanishSyntax.Lexicon.Pattern.Reader
import SpanishSyntax.Proofs.Grammar.RuleText
import SpanishSyntax.Proofs.Tree.Replay
import SpanishSyntax.Proofs.Tree.Words

/-!
# Words and trees of an analysis are aligned

The parser matches a terminal by putting it into the part of the yield that was read, and what is
still on its stack comes behind.  So the terminals of a replayed tree are the categories of the
tokens that were consumed and then those that were predicted in vain
(`ParseTable.exists_labels_ofTrace`), and attaching the consumed words leaves none to the latter.
The guessed tree of a rejected sentence holds every token, cut at the first verb.

* `Analysis.Aligned`             what this says of an analysis;
* `Analyzer.aligned_analyze`     it holds of every analysis by an analyzer of settings.
-/

namespace SpanishSyntax

open Config (Settings)
open Lexicon (Token)

/-- the category in the place of a label, with the word -/
def Lexicon.Token.caption (t : Token) : String × Option String := (t.category, some t.lexeme)

/-- the tokens under a subject and a predicate, which begins with the first verb if there is one -/
structure SyntaxTree.SplitsAtVerb (f : SyntaxTree) (tokens : List Token) : Prop where
  approximate : f.approximate = true
  leaves : ∀ n ∈ f.terminals, n.isLeaf = true
  captions : f.terminals.map TreeNode.caption = tokens.map Token.caption
  split : ∃ before after subject predicate,
    tokens = before ++ after ∧ f.root.children = [subject, predicate] ∧
    (∀ t ∈ before, t.category ≠ "verbo") ∧ (∀ t ∈ after.head?, t.category = "verbo") ∧
    subject.label = "SN" ∧ subject.terminals.map TreeNode.caption = before.map Token.caption ∧
    predicate.label = "SV" ∧ predicate.terminals.map TreeNode.caption = after.map Token.caption

structure Analysis.Aligned (r : Analysis) : Prop where
  leaves : ∀ n ∈ r.tree.terminals, n.isLeaf = true
  accepted : r.accepted = true →
    r.fallback = none ∧ r.tree.terminals.map TreeNode.caption = r.tokens.map Token.caption
  consumed_le : r.outcome.consumed ≤ r.tokens.length
  matched : (r.tree.terminals.take r.outcome.consumed).map TreeNode.caption =
    (r.tokens.take r.outcome.consumed).map Token.caption
  /-- terminals that were predicted and met no token -/
  unmatched : ∀ n ∈ r.tree.terminals.drop r.outcome.consumed, n.lexeme = none
  rejected : r.accepted = false → ∃ f, r.fallback = some f ∧ f.SplitsAtVerb r.tokens

namespace SyntaxTree

/-! ## the guessed tree -/

/-- what `guess` is given for a token -/
def pairOf (t : Token) : String × String := (t.lexeme, t.category)

theorem captions_pairOf (tokens : List Token) :
    ((tokens.map pairOf).map fun w => (⟨w.2, true, 3, some w.1, []⟩ : TreeNode)).map
      TreeNode.caption = tokens.map Token.caption := by
  rw [List.map_map, List.map_map]
  rfl

theorem isVerb_pairOf (t : Token) : isVerb (pairOf t) = true ↔ t.category = "verbo" := by
  simp [isVerb, pairOf]

theorem splitsAtVerb_guess (tokens : List Token) :
    (guess (tokens.map pairOf)).SplitsAtVerb tokens where
  approximate := rfl
  leaves := fun n hn => by
    rw [terminals_guess] at hn
    obtain ⟨w, _, rfl⟩ := List.mem_map.mp hn
    rfl
  captions := by rw [terminals_guess, captions_pairOf]
  split := by
    let quiet : Token → Bool := fun t => !isVerb (pairOf t)
    have htake : (tokens.map pairOf).takeWhile (!isVerb ·) =
        (tokens.takeWhile quiet).map pairOf := List.takeWhile_map
    have hdrop : (tokens.map pairOf).dropWhile (!isVerb ·) =
        (tokens.dropWhile quiet).map pairOf := List.dropWhile_map
    have hsubject : ((TreeNode.terminalsList (((tokens.map pairOf).takeWhile
        (!isVerb ·)).map wordNode)).map TreeNode.caption) =
        (tokens.takeWhile quiet).map Token.caption := by
      rw [terminals_wordNodes, htake, captions_pairOf]
    have hpredicate : ((TreeNode.terminalsList (((tokens.map pairOf).dropWhile
        (!isVerb ·)).map wordNode)).map TreeNode.caption) =
        (tokens.dropWhile quiet).map Token.caption := by
      rw [terminals_wordNodes, hdrop, captions_pairOf]
    refine ⟨tokens.takeWhile quiet, tokens.dropWhile quiet, _, _,
      List.takeWhile_append_dropWhile.symm, rfl, fun t ht => ?_, fun t ht => ?_, rfl, hsubject,
      rfl, hpredicate⟩
    · have hquiet := List.mem_takeWhile_imp ht
      intro hverb
      simp [quiet, (isVerb_pairOf t).mpr hverb] at hquiet
    · have hloud := List.head?_dropWhile_not quiet tokens
      rw [Option.mem_def.mp ht] at hloud
      exact (isVerb_pairOf t).mp (by simpa [quiet] using hloud)

end SyntaxTree

/-! ## the replayed tree -/

namespace ParseTable

variable {g : Grammar} {t : ParseTable}

theorem exists_labels_ofTrace (hb : t.Built g) (w : List String) :
    (t.parse w).consumed ≤ w.length ∧
    ∃ rest, (SyntaxTree.ofTrace (t.parse w).steps).leaves = w.take (t.parse w).consumed ++ rest ∧
      ((t.parse w).accepted = true → w.take (t.parse w).consumed = w ∧ rest = []) := by
  obtain ⟨steps, m, h⟩ := exists_course hb w
  obtain ⟨_, _, _, _, hyield⟩ := h.grows hb
  have hleaves := Growth.leaves_toNode (SyntaxTree.replay (t.parse w).steps).growth 0
  rw [hyield, Symbol.word_append, Symbol.word_terminals] at hleaves
  refine ⟨?_, Symbol.word m.form, hleaves, fun haccept => ?_⟩
  · rw [h.consumed, h.position_eq, h.tokens_eq, List.length_append]
    exact Nat.le_add_right _ _
  · obtain ⟨hempty, hread⟩ := h.of_accepted haccept
    rw [h.take_consumed, hempty]
    exact ⟨hread, rfl⟩

end ParseTable

namespace Analyzer

open Parse Machine

theorem grammar_of_tableOf {c : Config.GrammarSettings} {t : ParseTable} (h : tableOf c = .ok t) :
    ∃ g, Grammar.ofText c.start c.terminals c.rules = .ok g ∧
      ParseTable.build g c.conflictPolicy = .ok t := by
  unfold tableOf at h
  split at h
  · cases h
  · rename_i g hg
    split at h
    · cases h
    · rename_i ht
      exact ⟨g, hg, ht.trans (congrArg Except.ok (Except.ok.inj h))⟩

section

variable {regexes : Lexicon.Regexes} {s : Settings} {a : Analyzer}

/-- an analyzer of settings has the table of a grammar and the classifier of the vocabulary -/
theorem parts_of_ofSettings (h : ofSettings regexes s = .ok a) :
    (∃ d g, Declaration.build d = .ok g ∧
      ParseTable.build g s.grammar.conflictPolicy = .ok a.table) ∧
    s.lexicon.classifier regexes = .ok a.classifier := by
  unfold ofSettings at h
  split at h
  · cases h
  · rename_i htable
    obtain ⟨g, htext, hbuild⟩ := grammar_of_tableOf htable
    obtain ⟨_, _, hdeclared⟩ := Grammar.ofText_eq_ok_iff.mp htext
    split at h
    · cases h
    · rename_i hclassifier
      cases h
      exact ⟨⟨_, g, hdeclared, hbuild⟩, hclassifier⟩

/-- the captions of the tree: tokens that were consumed, then bare labels -/
theorem captions_tree {g : Grammar} (hb : a.table.Built g) (sentence : String) :
    ∃ rest : List String, (a.analyze sentence).tree.terminals.map TreeNode.caption =
        ((a.analyze sentence).tokens.take (a.analyze sentence).outcome.consumed).map
          Token.caption ++ rest.map (fun l => (l, none)) ∧
      ((a.analyze sentence).accepted = true →
        (a.analyze sentence).tokens.take (a.analyze sentence).outcome.consumed =
          (a.analyze sentence).tokens ∧ rest = []) := by
  let tokens := a.classifier.tokenize sentence
  let k := (a.table.parse (tokens.map (·.category))).consumed
  obtain ⟨hle, rest, hleaves, haccept⟩ := ParseTable.exists_labels_ofTrace hb
    (tokens.map (·.category))
  have hlength : ((tokens.take k).map (·.category)).length =
      ((tokens.take k).map (·.lexeme)).length := by
    rw [List.length_map, List.length_map]
  refine ⟨rest, ?_, fun h => ⟨?_, (haccept h).2⟩⟩
  · calc (a.analyze sentence).tree.terminals.map TreeNode.caption
        = withWords ((tokens.map (·.category)).take k ++ rest)
            ((tokens.map (·.lexeme)).take k) := by
          rw [← hleaves]
          exact TreeNode.captions_attach _ _
      _ = withWords ((tokens.take k).map (·.category)) ((tokens.take k).map (·.lexeme)) ++
            withWords rest [] := by
          rw [← List.map_take, ← List.map_take, withWords_append, hlength, List.drop_length]
      _ = (tokens.take k).map Token.caption ++ rest.map (fun l => (l, none)) := by
          rw [withWords_map, withWords_nil]
          rfl
  · have hlen := congrArg List.length (haccept h).1
    rw [List.length_take, List.length_map] at hlen
    show tokens.take k = tokens
    exact List.take_of_length_le (by omega)

/-- **No word is lost or misaligned**: the terminals of the tree are the tokens if the sentence is
accepted, and otherwise the tokens that were consumed with nothing but bare labels behind them,
while a guessed tree holds all tokens. -/
theorem aligned_analyze (ha : ofSettings regexes s = .ok a) (sentence : String) :
    (a.analyze sentence).Aligned := by
  obtain ⟨⟨d, g, hd, ht⟩, _⟩ := parts_of_ofSettings ha
  have hb := ParseTable.built_of_build hd ht
  obtain ⟨rest, hcaptions, haccept⟩ := captions_tree hb sentence
  have hle := (ParseTable.exists_labels_ofTrace hb
    ((a.classifier.tokenize sentence).map (·.category))).1
  rw [List.length_map] at hle
  have hconsumed : (((a.analyze sentence).tokens.take
      (a.analyze sentence).outcome.consumed).map Token.caption).length =
        (a.analyze sentence).outcome.consumed := by
    rw [List.length_map, List.length_take]
    exact Nat.min_eq_left hle
  exact {
    leaves := Growth.isLeaf_attach_toNode _ 0 _
    accepted := fun h => by
      obtain ⟨hall, rfl⟩ := haccept h
      refine ⟨if_pos h, ?_⟩
      rw [hcaptions, hall]
      exact List.append_nil _
    consumed_le := hle
    matched := by
      rw [List.map_take, hcaptions]
      exact List.take_left' hconsumed
    unmatched := fun n hn => by
      have hmem := List.mem_map_of_mem (f := TreeNode.caption) hn
      rw [List.map_drop, hcaptions, List.drop_left' hconsumed] at hmem
      obtain ⟨l, _, hl⟩ := List.mem_map.mp hmem
      exact (congrArg Prod.snd hl).symm
    rejected := fun h => by
      refine ⟨SyntaxTree.guess ((a.analyze sentence).tokens.map SyntaxTree.pairOf), ?_,
        SyntaxTree.splitsAtVerb_guess _⟩
      exact if_neg (Bool.eq_false_iff.mp h) }

end

/-- an article and a noun; a word is a noun unless it is the one article or the one verb -/
def phraseSettings : Settings where
  grammar := ⟨"S", ["art", "sust"], "S->art sust", .reject⟩
  lexicon := ⟨"aceglmot", "", "", "sust", "num", "punt",
    [⟨"art", ["el"], none, true⟩, ⟨"verbo", ["come"], none, false⟩]⟩
  semantic := ⟨[], []⟩
  outputFormat := "tag"

/-- in the second sentence a noun is predicted and a verb met -/
theorem aligned_phrase : ∃ a, ofSettings Lexicon.Pattern.regexes phraseSettings = .ok a ∧
    (a.analyze "el gato").accepted = true ∧ (a.analyze "el gato").Aligned ∧
    (a.analyze "el come").accepted = false ∧ (a.analyze "el come").Aligned ∧
    (a.analyze "el come").outcome.consumed = 1 ∧
    (SyntaxTree.ofTrace (a.analyze "el come").outcome.steps).leaves = ["art", "sust"] := by
  have hrun : (match ofSettings Lexicon.Pattern.regexes phraseSettings with
      | .error _ => false
      | .ok a =>
        a.table.grammar.start == "S" &&
        (a.classifier.tokenize "el gato").map (·.category) == ["art", "sust"] &&
        (a.classifier.tokenize "el come").map (·.category) == ["art", "verbo"] &&
        runWithin a.table 5 (initial "S" ["art", "sust"]) ==
          some ⟨[⟨["sust", "art"], ["art", "sust"],
              .expand "S" [.terminal "art", .terminal "sust"]⟩,
            ⟨["sust"], ["sust"], .matched "art"⟩, ⟨[], [], .matched "sust"⟩,
            ⟨[], [], .accept⟩], none, 2⟩ &&
        runWithin a.table 5 (initial "S" ["art", "verbo"]) ==
          some ⟨[⟨["sust", "art"], ["art", "verbo"],
              .expand "S" [.terminal "art", .terminal "sust"]⟩,
            ⟨["sust"], ["verbo"], .matched "art"⟩,
            ⟨["sust"], ["verbo"], .reject (.terminalMismatch "sust" "verbo" 1)⟩],
            some (.terminalMismatch "sust" "verbo" 1), 1⟩) = true := by
    decide +kernel
  cases ha : ofSettings Lexicon.Pattern.regexes phraseSettings with
  | error f => simp [ha] at hrun
  | ok a =>
    simp only [ha, Bool.and_eq_true, beq_iff_eq] at hrun
    obtain ⟨⟨⟨⟨hstart, hphrase⟩, hverb⟩, haccept⟩, hreject⟩ := hrun
    rw [← hstart] at haccept hreject
    have hphrase : (a.analyze "el gato").outcome = a.table.parse ["art", "sust"] :=
      congrArg a.table.parse hphrase
    have hverb : (a.analyze "el come").outcome = a.table.parse ["art", "verbo"] :=
      congrArg a.table.parse hverb
    rw [ParseTable.parse_of_runWithin haccept] at hphrase
    rw [ParseTable.parse_of_runWithin hreject] at hverb
    refine ⟨a, rfl, ?_, aligned_analyze ha _, ?_, aligned_analyze ha _, ?_, ?_⟩
    · exact congrArg Outcome.accepted hphrase
    · exact congrArg Outcome.accepted hverb
    · exact congrArg Outcome.consumed hverb
    · rw [hverb, hstart]
      rfl

end Analyzer

end SpanishSyntax
