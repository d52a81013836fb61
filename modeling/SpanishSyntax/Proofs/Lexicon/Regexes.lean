import Mathlib.Data.List.Basic
import SpanishSyntax.Lexicon.Regexes

/-!
# What a library of regular expressions is relied on for

`Regexes.Standard R means` says that the library `R` has standard semantics, with `means e` for the
meaning of the expression `e`: which parts of a text match it, by what stands before and behind
them.  It is what a manual says of search, of the two ends of a text, of groups and of
concatenation, and only for expressions that the library accepts.  A group takes an expression as a
whole, so a concatenation with it is read part by part only if the expression is accepted by itself.

* `Standard.means_wholeWord`     the expression for whole words matches the text as a whole;
* `Standard.search_wholeWord`    so it is found exactly in the words that match from end to end.
-/

namespace SpanishSyntax.Lexicon.Regexes

/-- may the part `found` of a text match, between `before` and `after` -/
abbrev Meaning := List Char → List Char → List Char → Prop

/-- matches of the expressions, one behind the other -/
def InTurn (means : String → Meaning) : List String → Meaning
  | [], _, found, _ => found = []
  | e :: es, before, found, after => ∃ first rest, found = first ++ rest ∧
      means e before first (rest ++ after) ∧ InTurn means es (before ++ first) rest after

def IsAnchor (e : String) : Prop := e = "^" ∨ e = "$"

structure Standard (R : Regexes) (means : String → Meaning) : Prop where
  /-- the test is whether some part of the text is a match -/
  search {e : String} {test : String → Bool} : R.compile? e = some test → ∀ text : String,
    test text = true ↔ ∃ before found after, text.toList = before ++ found ++ after ∧
      means e before found after
  /-- `^` matches nothing, and only at the beginning of the text -/
  textStart : ∀ before found after, means "^" before found after ↔ before = [] ∧ found = []
  /-- `$` matches nothing, and only at the end of the text -/
  textEnd : ∀ before found after, means "$" before found after ↔ after = [] ∧ found = []
  /-- a group matches what is in it -/
  group_iff {e : String} : R.Accepts e → ∀ before found after,
    means (group e) before found after ↔ means e before found after
  /-- a concatenation matches its parts in turn; the parts are anchors and one group of an accepted
  expression -/
  concatenation {e : String} {front back : List String} : R.Accepts e →
    (∀ x ∈ front ++ back, IsAnchor x) → R.Accepts (String.join (front ++ group e :: back)) →
    ∀ before found after, means (String.join (front ++ group e :: back)) before found after ↔
      InTurn means (front ++ group e :: back) before found after

namespace Standard

variable {R : Regexes} {means : String → Meaning} {e : String}

theorem means_wholeWord (hs : R.Standard means) (he : R.Accepts e) (hw : R.Accepts (wholeWord e))
    (before found after : List Char) :
    means (wholeWord e) before found after ↔ before = [] ∧ after = [] ∧ means e [] found [] := by
  have hjoin : wholeWord e = String.join (["^"] ++ group e :: ["$"]) := by
    simp [wholeWord, String.join]
  have hanchors : ∀ x ∈ ["^"] ++ ["$"], IsAnchor x := by simp [IsAnchor]
  rw [hjoin] at hw ⊢
  rw [hs.concatenation he hanchors hw]
  simp only [List.singleton_append, InTurn, hs.textStart, hs.textEnd, hs.group_iff he]
  constructor
  · rintro ⟨_, _, rfl, ⟨rfl, rfl⟩, found, _, rfl, hmeans, _, _, rfl, ⟨hafter, rfl⟩, rfl⟩
    obtain rfl : after = [] := hafter
    exact ⟨rfl, rfl, by simpa using hmeans⟩
  · rintro ⟨rfl, rfl, hmeans⟩
    exact ⟨[], found, rfl, ⟨rfl, rfl⟩, found, [], by simp, by simpa using hmeans, [], [], rfl,
      ⟨rfl, rfl⟩, rfl⟩

theorem search_wholeWord {test : String → Bool} (hs : R.Standard means) (he : R.Accepts e)
    (hw : R.compile? (wholeWord e) = some test) (word : String) :
    test word = true ↔ means e [] word.toList [] := by
  rw [hs.search hw]
  simp only [hs.means_wholeWord he ⟨test, hw⟩]
  constructor
  · rintro ⟨_, found, _, hword, rfl, rfl, hmeans⟩
    rw [hword, List.nil_append, List.append_nil]
    exact hmeans
  · exact fun hmeans => ⟨[], word.toList, [], by simp, rfl, rfl, hmeans⟩

end Standard

end SpanishSyntax.Lexicon.Regexes
