import SpanishSyntax.Proofs.Analysis.Alignment
import SpanishSyntax.Proofs.Lexicon.Alphabet
import SpanishSyntax.Proofs.Lexicon.Segment

/-!
# The lexical error of a sentence

A character is foreign to a vocabulary if it is no blank and no symbol.  The segmentation puts each
such character into one lexeme, and the alphabet automaton stops at the first one in a lexeme, so
the first invalid token is the one with the first foreign character of the sentence
(`Analyzer.lexicalError_exact`).
-/

namespace SpanishSyntax

open Lexicon (Lexeme Vocabulary segment)

namespace Lexicon

def Vocabulary.Foreign (v : Vocabulary) (c : Char) : Prop :=
  Text.isBlank c = false ∧ c ∉ v.symbols

instance (v : Vocabulary) : DecidablePred v.Foreign := fun c =>
  inferInstanceAs (Decidable (Text.isBlank c = false ∧ c ∉ v.symbols))

section

variable {regexes : Regexes} {v : Vocabulary} {c : Classifier} {sentence : String} {l : Lexeme}

theorem stopsOutside_token (hc : v.classifier regexes = .ok c) (hl : l ∈ segment sentence) :
    (c.classify l.text l.index).errorChar = l.text.toList.find? (fun x => x ∉ v.symbols) ∧
      ((c.classify l.text l.index).valid = true ↔ ∀ x ∈ l.text.toList, x ∈ v.symbols) :=
  stopsOutside_alphabet (alphabet_of_classifier hc) (chars_of_mem_segment hl).1

theorem mem_symbols_of_mem_lexeme (hl : l ∈ segment sentence) {x : Char}
    (hx : x ∈ l.text.toList) (h : ¬ v.Foreign x) : x ∈ v.symbols := by
  by_contra hout
  exact h ⟨((chars_of_mem_segment hl).2 x hx).1, hout⟩

theorem valid_of_no_foreign (hc : v.classifier regexes = .ok c) (hl : l ∈ segment sentence)
    (h : ∀ x ∈ l.text.toList, ¬ v.Foreign x) : (c.classify l.text l.index).valid = true :=
  (stopsOutside_token hc hl).2.mpr fun x hx => mem_symbols_of_mem_lexeme hl hx (h x hx)

theorem firstInvalid_eq_none (hc : v.classifier regexes = .ok c)
    (h : ∀ x ∈ sentence.toList, ¬ v.Foreign x) : firstInvalid (c.tokenize sentence) = none := by
  refine List.find?_eq_none.mpr fun t ht => ?_
  obtain ⟨l, hl, rfl⟩ := List.mem_map.mp ht
  have hvalid : (c.classify l.text l.index).valid = true :=
    valid_of_no_foreign hc hl fun x hx => h x ((chars_of_mem_segment hl).2 x hx).2
  simp [hvalid]

theorem firstInvalid_eq_some (hc : v.classifier regexes = .ok c) {before after : List Char}
    {x : Char} (hs : sentence.toList = before ++ x :: after) (hx : v.Foreign x)
    (hbefore : ∀ y ∈ before, ¬ v.Foreign y) :
    ∃ l ∈ segment sentence, l.Covers 0 before x after ∧ (segment sentence)[l.index]? = some l ∧
      firstInvalid (c.tokenize sentence) = some (c.classify l.text l.index) ∧
      (c.classify l.text l.index).errorChar = some x := by
  have hcut := cut_segmentFrom 0 0 sentence.toList
  rw [hs] at hcut
  obtain ⟨left, l, right, hls, hindex, hcovers, hleft⟩ := hcut.exists_covers hx.1
  have hsegment : segment sentence = left ++ l :: right := by rw [segment, hs, hls]
  have hl : l ∈ segment sentence := hsegment ▸ List.mem_append_right _ List.mem_cons_self
  obtain ⟨u, p, q, _, hu, _, htext, _⟩ := id hcovers
  have hchars : l.text.toList = p ++ x :: q := by rw [htext, String.toList_ofList]
  -- what the lexeme has in front of the character stands in front of it in the sentence
  have hp : ∀ y ∈ p, y ∈ v.symbols := fun y hy =>
    mem_symbols_of_mem_lexeme hl (hchars ▸ List.mem_append_left _ hy)
      (hbefore y (hu ▸ List.mem_append_right _ hy))
  have hinvalid : (c.classify l.text l.index).valid = false := by
    rw [Bool.eq_false_iff]
    intro hvalid
    exact hx.2 ((stopsOutside_token hc hl).2.mp hvalid x
      (hchars ▸ List.mem_append_right _ List.mem_cons_self))
  refine ⟨l, hl, hcovers, ?_, ?_, ?_⟩
  · rw [hsegment, hindex, Nat.zero_add, List.getElem?_append_right (Nat.le_refl _), Nat.sub_self]
    rfl
  · rw [Classifier.tokenize, hsegment, List.map_append, List.map_cons]
    refine List.find?_eq_some_iff_append.mpr ⟨by rw [hinvalid]; rfl, _, _, rfl, fun t ht => ?_⟩
    obtain ⟨m, hm, rfl⟩ := List.mem_map.mp ht
    rw [Bool.not_not]
    exact valid_of_no_foreign hc (hsegment ▸ List.mem_append_left _ hm) fun y hy =>
      hbefore y (hleft m hm y hy)
  · rw [(stopsOutside_token hc hl).1, hchars]
    exact List.find?_eq_some_iff_append.mpr
      ⟨by simpa using hx.2, p, q, rfl, fun y hy => by simpa using hp y hy⟩

end

end Lexicon

namespace Analyzer

section

variable {regexes : Lexicon.Regexes} {v : Vocabulary} {a : Analyzer} {sentence : String}

theorem lexicalError_eq_none (ha : v.classifier regexes = .ok a.classifier)
    (h : ∀ x ∈ sentence.toList, ¬ v.Foreign x) : (a.analyze sentence).lexicalError = none := by
  rw [Analysis.lexicalError, tokens_analyze, Lexicon.firstInvalid_eq_none ha h]
  rfl

theorem lexicalError_eq_some (ha : v.classifier regexes = .ok a.classifier)
    {before after : List Char} {x : Char} (hs : sentence.toList = before ++ x :: after)
    (hx : v.Foreign x) (hbefore : ∀ y ∈ before, ¬ v.Foreign y) :
    ∃ l ∈ segment sentence, l.Covers 0 before x after ∧
      (∀ m ∈ segment sentence, m.Covers 0 before x after → m = l) ∧
      (segment sentence)[l.index]? = some l ∧
      (a.analyze sentence).lexicalError = some ⟨l.text, l.index, some x⟩ := by
  obtain ⟨l, hl, hcovers, hget, hinvalid, hchar⟩ := Lexicon.firstInvalid_eq_some ha hs hx hbefore
  refine ⟨l, hl, hcovers, fun m hm hm' => ?_, hget, ?_⟩
  · exact (Lexicon.cut_segmentFrom 0 0 sentence.toList).covers_unique hl hm hcovers hm'
  · rw [Analysis.lexicalError, tokens_analyze, hinvalid, Option.map_some, hchar]
    rfl

theorem exists_first_foreign (h : ∃ x ∈ sentence.toList, v.Foreign x) :
    ∃ before x after, sentence.toList = before ++ x :: after ∧ v.Foreign x ∧
      ∀ y ∈ before, ¬ v.Foreign y := by
  have hfound : (sentence.toList.find? fun x => decide (v.Foreign x)).isSome = true :=
    List.find?_isSome.mpr (by simpa using h)
  obtain ⟨x, hx⟩ := Option.isSome_iff_exists.mp hfound
  obtain ⟨hforeign, before, after, hs, hbefore⟩ := List.find?_eq_some_iff_append.mp hx
  exact ⟨before, x, after, hs, of_decide_eq_true hforeign, fun y hy => by simpa using hbefore y hy⟩

end

/-- **Lexical errors are exact**, whatever library compiles the patterns: with distinct symbols
there is a classifier, and it reports the first foreign character of a sentence, in the one lexeme
that covers it. -/
theorem lexicalError_exact (regexes : Lexicon.Regexes) (v : Vocabulary) :
    (v.PatternsCompile regexes → ((∃ c, v.classifier regexes = .ok c) ↔ v.symbols.Nodup)) ∧
    ∀ a : Analyzer, v.classifier regexes = .ok a.classifier → ∀ sentence : String,
      ((a.analyze sentence).lexicalError.isSome = true ↔ ∃ x ∈ sentence.toList, v.Foreign x) ∧
      ∀ before x after, sentence.toList = before ++ x :: after → v.Foreign x →
        (∀ y ∈ before, ¬ v.Foreign y) →
        ∃ l ∈ segment sentence, l.Covers 0 before x after ∧
          (∀ m ∈ segment sentence, m.Covers 0 before x after → m = l) ∧
          (segment sentence)[l.index]? = some l ∧
          (a.analyze sentence).lexicalError = some ⟨l.text, l.index, some x⟩ := by
  refine ⟨Lexicon.exists_classifier_iff, fun a ha sentence =>
    ⟨⟨fun hsome => ?_, fun hex => ?_⟩, fun _ _ _ => lexicalError_eq_some ha⟩⟩
  · by_contra hnone
    rw [lexicalError_eq_none ha fun x hx hforeign => hnone ⟨x, hx, hforeign⟩] at hsome
    cases hsome
  · obtain ⟨before, x, after, hs, hx, hbefore⟩ := exists_first_foreign hex
    obtain ⟨l, _, _, _, _, herror⟩ := lexicalError_eq_some ha hs hx hbefore
    rw [herror]
    rfl

/-- the words of a phrase, and plurals by a pattern -/
def pluralSettings : Config.Settings :=
  { phraseSettings with
    lexicon := ⟨"aceglmnost", "0123456789", ",.", "sust", "num", "punt",
      [⟨"art", ["el"], none, true⟩, ⟨"plural", [], some "[a-z]+s", false⟩]⟩ }

/-- the accent inside the third lexeme is the first foreign character, and the last is another -/
theorem lexicalError_plural : pluralSettings.lexicon.PatternsCompile Lexicon.Pattern.regexes ∧
    pluralSettings.lexicon.symbols.Nodup ∧
    ∃ a, ofSettings Lexicon.Pattern.regexes pluralSettings = .ok a ∧
      (a.analyze "el, galés ñ").lexicalError = some ⟨"galés", 2, some 'é'⟩ := by
  let v := pluralSettings.lexicon
  have hpatterns : v.PatternsCompile Lexicon.Pattern.regexes := by
    have hread : (Lexicon.Pattern.regexes.compile?
        (Lexicon.Regexes.wholeWord "[a-z]+s")).isSome = true := by decide +kernel
    simpa [v, pluralSettings, Vocabulary.PatternsCompile, Lexicon.Regexes.Accepts,
      ← Option.isSome_iff_exists] using hread
  have hok : (match ofSettings Lexicon.Pattern.regexes pluralSettings with
      | .ok _ => true
      | .error _ => false) = true := by
    decide +kernel
  cases ha : ofSettings Lexicon.Pattern.regexes pluralSettings with
  | error f => simp [ha] at hok
  | ok a =>
    have hclassifier := (parts_of_ofSettings ha).2
    have hnodup := ((lexicalError_exact Lexicon.Pattern.regexes v).1 hpatterns).mp ⟨_, hclassifier⟩
    have hbefore : ("el, gal".toList.all fun y => !decide (v.Foreign y)) = true := by
      decide +kernel
    obtain ⟨l, _, _, hunique, _, herror⟩ :=
      ((lexicalError_exact Lexicon.Pattern.regexes v).2 a hclassifier "el, galés ñ").2
        "el, gal".toList 'é' "s ñ".toList (by decide +kernel) (by decide +kernel)
        fun y hy => by simpa using List.all_eq_true.mp hbefore y hy
    have hlexeme := hunique ⟨"galés", .word, 2, 4, 10⟩ (by decide +kernel)
      ⟨"el, ".toList, "gal".toList, "s".toList, " ñ".toList, by decide +kernel, by decide +kernel,
        by decide +kernel, by decide +kernel⟩
    refine ⟨hpatterns, hnodup, a, rfl, ?_⟩
    rw [herror, ← hlexeme]

end Analyzer

end SpanishSyntax
