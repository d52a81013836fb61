import Mathlib.Data.List.Forall2
import SpanishSyntax.Lexicon.Classifier
import SpanishSyntax.Proofs.Lexicon.Pattern.Standard

/-!
# Rules

A rule names the words of its list, in small letters, and the words that its pattern matches from
end to end.  The first rule that names a word decides it.

A classifier has the pattern of a rule compiled inside `^(?:` and `)$` and not by itself.  With a
library of standard semantics the rule fits the words in which that text has a match
(`fits_iff_found`).  If the pattern is an expression by itself, these are the words that the rule
names (`found_iff_names`).  But a pattern that closes the group is accepted as well, though it is no
expression, and it is matched against a part of the word:

* `decides_of_classifier`          the first rule that is found decides, and it is the first one
                                   that names the word if the patterns are well formed;
* `escaping_pattern_is_accepted`   there are others, and they are found in more words.
-/

namespace SpanishSyntax.Lexicon

open Regexes

namespace CategoryRule

/-- the word is listed, in small letters, or has a match of what is compiled for the pattern -/
def Found (means : String → Meaning) (r : CategoryRule) (word : String) : Prop :=
  word ∈ r.words.map Text.lowercase ∨
    ∃ source, r.pattern = some source ∧ ∃ before found after,
      word.toList = before ++ found ++ after ∧ means (wholeWord source) before found after

/-- the word is listed, in small letters, or the pattern matches it from its start to its end -/
def Names (means : String → Meaning) (r : CategoryRule) (word : String) : Prop :=
  word ∈ r.words.map Text.lowercase ∨
    ∃ source, r.pattern = some source ∧ means source [] word.toList []

/-- the pattern, if there is one, is an expression by itself -/
def WellFormed (regexes : Regexes) (r : CategoryRule) : Prop :=
  ∀ source, r.pattern = some source → regexes.Accepts source

section

variable {regexes : Regexes} {means : String → Meaning} {r : CategoryRule} {w : WordRule}

theorem prepare_eq_ok (h : r.prepare regexes = .ok w) :
    w.category = r.category ∧ w.words = r.words.map Text.lowercase ∧ w.reserved = r.reserved ∧
      w.pattern = r.pattern.bind (fun source => regexes.compile? (wholeWord source)) ∧
      ∀ source, r.pattern = some source → regexes.Accepts (wholeWord source) := by
  unfold prepare at h
  split at h
  · rename_i hnone
    cases h
    simp [hnone]
  · rename_i source hsource
    split at h
    · rename_i test htest
      cases h
      simp [hsource, htest, Accepts]
    · cases h

theorem fits_iff_found (hs : regexes.Standard means) (h : r.prepare regexes = .ok w)
    (word : String) : w.fits word = true ↔ r.Found means word := by
  obtain ⟨_, hwords, _, hpattern, haccepts⟩ := prepare_eq_ok h
  unfold WordRule.fits Found
  rw [Bool.or_eq_true, decide_eq_true_eq, hwords, hpattern]
  refine or_congr_right ?_
  cases hsource : r.pattern with
  | none => simp
  | some source =>
    obtain ⟨test, htest⟩ := haccepts source hsource
    rw [Option.bind_some, htest]
    refine (hs.search htest word).trans ?_
    simp

/-- **A pattern that is an expression by itself** has to match the whole word. -/
theorem found_iff_names (hs : regexes.Standard means) (h : r.prepare regexes = .ok w)
    (hr : r.WellFormed regexes) (word : String) : r.Found means word ↔ r.Names means word := by
  obtain ⟨_, _, _, _, haccepts⟩ := prepare_eq_ok h
  refine or_congr_right (exists_congr fun source => and_congr_right fun hsource => ?_)
  obtain ⟨test, htest⟩ := haccepts source hsource
  exact (hs.search htest word).symm.trans (hs.search_wholeWord (hr source hsource) htest word)

end

end CategoryRule

/-! ## the first rule -/

/-- the category and the mark that the first of the rules with `P` gives, or the default -/
def Vocabulary.Decides (v : Vocabulary) (P : CategoryRule → Prop) (category : String)
    (reserved : Bool) : Prop :=
  (∃ before r after, v.rules = before ++ r :: after ∧ (∀ s ∈ before, ¬P s) ∧ P r ∧
    category = r.category ∧ reserved = r.reserved) ∨
  (∀ r ∈ v.rules, ¬P r) ∧ category = v.defaultCategory ∧ reserved = false

theorem Vocabulary.Decides.congr {v : Vocabulary} {P Q : CategoryRule → Prop} {category : String}
    {reserved : Bool} (h : v.Decides P category reserved) (hiff : ∀ r ∈ v.rules, P r ↔ Q r) :
    v.Decides Q category reserved := by
  rcases h with ⟨before, r, after, hsplit, hbefore, hr, hresult⟩ | ⟨hnone, hresult⟩
  · rw [hsplit] at hiff
    refine .inl ⟨before, r, after, hsplit, fun s hs hq => hbefore s hs ?_, ?_, hresult⟩
    · exact (hiff s (List.mem_append_left _ hs)).mpr hq
    · exact (hiff r (List.mem_append_right _ List.mem_cons_self)).mp hr
  · exact .inr ⟨fun r hr hq => hnone r hr ((hiff r hr).mpr hq), hresult⟩

section

variable {regexes : Regexes} {means : String → Meaning} {v : Vocabulary} {c : Classifier}

theorem forall₂_of_prepareAll {rs : List CategoryRule} {ws : List WordRule}
    (h : prepareAll regexes rs = .ok ws) :
    List.Forall₂ (fun r w => r.prepare regexes = .ok w) rs ws := by
  induction rs generalizing ws with
  | nil =>
    cases h
    exact .nil
  | cons r rs ih =>
    unfold prepareAll at h
    split at h
    · cases h
    · rename_i w hw
      cases hrs : prepareAll regexes rs with
      | error f =>
        rw [hrs] at h
        cases h
      | ok ws' =>
        rw [hrs] at h
        cases h
        exact .cons hw (ih hrs)

theorem rules_of_classifier (h : v.classifier regexes = .ok c) :
    List.Forall₂ (fun r w => r.prepare regexes = .ok w) v.rules c.rules ∧
      c.defaultCategory = v.defaultCategory := by
  unfold Vocabulary.classifier at h
  split at h
  · cases h
  · cases hrules : prepareAll regexes v.rules with
    | error f =>
      rw [hrules] at h
      cases h
    | ok rules =>
      rw [hrules] at h
      cases h
      exact ⟨forall₂_of_prepareAll hrules, rfl⟩

theorem exists_prepare {rs : List CategoryRule} {ws : List WordRule}
    (h : List.Forall₂ (fun r w => r.prepare regexes = .ok w) rs ws) :
    ∀ r ∈ rs, ∃ w, r.prepare regexes = .ok w := by
  induction h with
  | nil => exact fun r hr => nomatch hr
  | cons hw _ ih => exact List.forall_mem_cons.mpr ⟨⟨_, hw⟩, ih⟩

/-- the rule that fits among the prepared ones is the first that is found in the word -/
theorem find?_fits (hs : regexes.Standard means) {rs : List CategoryRule} {ws : List WordRule}
    (h : List.Forall₂ (fun r w => r.prepare regexes = .ok w) rs ws) (word : String) :
    (∃ before r after w, rs = before ++ r :: after ∧ (∀ s ∈ before, ¬s.Found means word) ∧
      r.Found means word ∧ r.prepare regexes = .ok w ∧ ws.find? (·.fits word) = some w) ∨
    (∀ r ∈ rs, ¬r.Found means word) ∧ ws.find? (·.fits word) = none := by
  induction h with
  | nil => exact .inr ⟨fun r hr => (nomatch hr), rfl⟩
  | @cons r w rs ws hw _ ih =>
    have hfits := CategoryRule.fits_iff_found hs hw word
    by_cases hword : w.fits word = true
    · have hfind : (w :: ws).find? (·.fits word) = some w := List.find?_cons_of_pos hword
      exact .inl ⟨[], r, rs, w, rfl, fun _ h => (nomatch h), hfits.mp hword, hw, hfind⟩
    · have hfind : (w :: ws).find? (·.fits word) = ws.find? (·.fits word) :=
        List.find?_cons_of_neg hword
      rw [hfind]
      have hfound : ¬r.Found means word := fun h => hword (hfits.mpr h)
      rcases ih with ⟨before, r', after, w', rfl, hbefore, hrest⟩ | ⟨hnone, hrest⟩
      · exact .inl ⟨r :: before, r', after, w', rfl,
          List.forall_mem_cons.mpr ⟨hfound, hbefore⟩, hrest⟩
      · exact .inr ⟨List.forall_mem_cons.mpr ⟨hfound, hnone⟩, hrest⟩

theorem decides_categoryOf (hs : regexes.Standard means) (h : v.classifier regexes = .ok c)
    (word : String) : v.Decides (·.Found means (Text.lowercase word)) (c.categoryOf word).1
      (c.categoryOf word).2 := by
  obtain ⟨hprepare, hdefault⟩ := rules_of_classifier h
  unfold Classifier.categoryOf
  rcases find?_fits hs hprepare (Text.lowercase word) with
    ⟨before, r, after, w, hsplit, hbefore, hr, hw, hfind⟩ | ⟨hnone, hfind⟩
  · obtain ⟨hcategory, _, hreserved, _⟩ := CategoryRule.prepare_eq_ok hw
    rw [hfind]
    exact .inl ⟨before, r, after, hsplit, hbefore, hr, hcategory, hreserved⟩
  · rw [hfind]
    exact .inr ⟨hnone, hdefault, rfl⟩

/-- **Rule patterns and rule order.**  With every library of standard semantics and for every
vocabulary that it gives a classifier for, a word that is no number and no punctuation mark has the
category and the reserved mark of the first rule that is found in it.  For a rule with a pattern
that is well formed by itself this says that the word is listed or matched from end to end, so if
all patterns are well formed, the first rule that lists or matches the word decides. -/
theorem decides_of_classifier (hs : regexes.Standard means) (h : v.classifier regexes = .ok c) :
    (∀ word position, form word.toList = .identifier →
      v.Decides (·.Found means (Text.lowercase word)) (c.classify word position).category
        (c.classify word position).reserved) ∧
    (∀ r ∈ v.rules, r.WellFormed regexes → ∀ word, r.Found means word ↔ r.Names means word) ∧
    ((∀ r ∈ v.rules, r.WellFormed regexes) →
      ∀ word position, form word.toList = .identifier →
        v.Decides (·.Names means (Text.lowercase word)) (c.classify word position).category
          (c.classify word position).reserved) := by
  have hfound : ∀ word position, form word.toList = .identifier →
      v.Decides (·.Found means (Text.lowercase word)) (c.classify word position).category
        (c.classify word position).reserved := by
    intro word position hform
    have hkind : (c.classify word position).category = (c.categoryOf word).1 ∧
        (c.classify word position).reserved = (c.categoryOf word).2 := by
      simp only [Classifier.classify, hform, and_self]
    rw [hkind.1, hkind.2]
    exact decides_categoryOf hs h word
  have hnames : ∀ r ∈ v.rules, r.WellFormed regexes →
      ∀ word, r.Found means word ↔ r.Names means word := by
    intro r hr
    obtain ⟨w, hw⟩ := exists_prepare (rules_of_classifier h).1 r hr
    exact CategoryRule.found_iff_names hs hw
  refine ⟨hfound, hnames, fun hrules word position hform => ?_⟩
  exact (hfound word position hform).congr fun r hr => hnames r hr (hrules r hr) _

end

/-- articles, plurals and infinitives -/
def patterned : Vocabulary := ⟨"aceglmnorst", "0123456789", ",.", "sust", "num", "punt",
  [⟨"art", ["el", "los"], none, true⟩, ⟨"plural", [], some "[a-z]+s", false⟩,
    ⟨"verb", [], some "(?:re)?[a-z]+[aei]r", false⟩]⟩

/-- the plural that is listed as an article is one, and another is decided by its pattern -/
theorem decides_patterned : Pattern.regexes.Standard Pattern.Means ∧
    (∀ r ∈ patterned.rules, r.WellFormed Pattern.regexes) ∧
    ∃ c, patterned.classifier Pattern.regexes = .ok c ∧
      patterned.Decides (·.Names Pattern.Means (Text.lowercase "Los")) "art" true ∧
      patterned.Decides (·.Names Pattern.Means (Text.lowercase "Mesas")) "plural" false := by
  have hplurals : (Pattern.regexes.compile? "[a-z]+s").isSome = true := by decide +kernel
  have hverbs : (Pattern.regexes.compile? "(?:re)?[a-z]+[aei]r").isSome = true := by
    decide +kernel
  have hrules : ∀ r ∈ patterned.rules, r.WellFormed Pattern.regexes := by
    simpa [patterned, CategoryRule.WellFormed, Accepts, ← Option.isSome_iff_exists]
      using ⟨hplurals, hverbs⟩
  have hresult : (match patterned.classifier Pattern.regexes with
      | .ok c => decide ((c.classify "Los" 0).category = "art" ∧
          (c.classify "Los" 0).reserved = true ∧ (c.classify "Mesas" 1).category = "plural" ∧
          (c.classify "Mesas" 1).reserved = false)
      | .error _ => false) = true := by
    decide +kernel
  cases hc : patterned.classifier Pattern.regexes with
  | error f =>
    rw [hc] at hresult
    cases hresult
  | ok c =>
    rw [hc] at hresult
    obtain ⟨hart, hreserved, hplural, hfree⟩ := of_decide_eq_true hresult
    have hdecides := (decides_of_classifier Pattern.standard_regexes hc).2.2 hrules
    have hlos := hdecides "Los" 0 (by decide +kernel)
    have hmesas := hdecides "Mesas" 1 (by decide +kernel)
    rw [hart, hreserved] at hlos
    rw [hplural, hfree] at hmesas
    exact ⟨Pattern.standard_regexes, hrules, c, rfl, hlos, hmesas⟩

/-- a pattern that closes the group around it and opens another -/
def escaping : Vocabulary :=
  ⟨"abxy", "", "", "sust", "num", "punt", [⟨"x", [], some "a)|(?:b", false⟩]⟩

/-- it is accepted, though it is no expression by itself, and it gives its category to a word of
which only the first letter matches -/
theorem escaping_pattern_is_accepted : Pattern.regexes.Standard Pattern.Means ∧
    ∃ c, escaping.classifier Pattern.regexes = .ok c ∧
      ¬Pattern.regexes.Accepts "a)|(?:b" ∧ form "axy".toList = .identifier ∧
      ¬escaping.Decides (·.Names Pattern.Means (Text.lowercase "axy"))
        (c.classify "axy" 0).category (c.classify "axy" 0).reserved := by
  have hillFormed : Pattern.read? "a)|(?:b".toList = none := by decide +kernel
  have hresult : (match escaping.classifier Pattern.regexes with
      | .ok c => decide ((c.classify "axy" 0).category = "x")
      | .error _ => false) = true := by
    decide +kernel
  cases hc : escaping.classifier Pattern.regexes with
  | error f =>
    rw [hc] at hresult
    cases hresult
  | ok c =>
    rw [hc] at hresult
    refine ⟨Pattern.standard_regexes, c, rfl, ?_, by decide +kernel, ?_⟩
    · intro haccepts
      obtain ⟨p, hp⟩ := Pattern.exists_read?_of_accepts haccepts
      rw [hillFormed] at hp
      cases hp
    · rw [of_decide_eq_true hresult]
      have hnames : ∀ r ∈ escaping.rules, ¬r.Names Pattern.Means (Text.lowercase "axy") := by
        intro r hr
        obtain rfl := List.mem_singleton.mp hr
        rintro (hlisted | ⟨source, hsource, p, hp, _⟩)
        · cases hlisted
        · obtain rfl := Option.some.inj hsource
          rw [hillFormed] at hp
          cases hp
      rintro (⟨before, r, after, hsplit, _, hr, _⟩ | ⟨_, hcategory, _⟩)
      · exact hnames r (hsplit ▸ by simp) hr
      · exact absurd hcategory (by decide)

end SpanishSyntax.Lexicon
