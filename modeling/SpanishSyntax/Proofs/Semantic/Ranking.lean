import Mathlib.Algebra.Order.Field.Basic
import Mathlib.Algebra.Order.Field.Rat
import Mathlib.Algebra.BigOperators.Group.List.Basic
import Mathlib.Data.List.Infix
import Mathlib.Tactic.NormNum
import Mathlib.Tactic.Ring
import SpanishSyntax.Proofs.Semantic.Scores

/-!
# Concepts are ranked by their worth

`Concept.worth` is what words and stems are worth to a concept: 3 for its name and otherwise 2 for
a synonym, 1 for a stem that is part of the name or has it as a part, and 1/2 for each synonym in
its place.  The scores that were kept count halves of this (`half_points`), and a concept that
is worth nothing has none.

What scored is put into its place one after the other, behind all that is worth as much.  So the
order descends, and between equals it is that of the base (`filter_insertRanked`).

* `Ranked`                          a list in this order;
* `KnowledgeBase.ranked_rank`       the ranking is the concepts of positive worth so ordered, in
                                    whatever order the words and the stems come.
-/

namespace SpanishSyntax.Semantic

/-! ## worth -/

/-- one text is part of the other, both in lower case -/
def Meets (a b : String) : Prop :=
  (Text.lowercase a).toList <:+: (Text.lowercase b).toList ∨
    (Text.lowercase b).toList <:+: (Text.lowercase a).toList

instance (a b : String) : Decidable (Meets a b) := inferInstanceAs (Decidable (_ ∨ _))

namespace Concept

def wordWorth (c : Concept) (word : String) : ℚ :=
  if Text.lowercase word = Text.lowercase c.name then 3
  else if ∃ s ∈ c.synonyms, Text.lowercase word = Text.lowercase s then 2
  else 0

def stemWorth (c : Concept) (stem : String) : ℚ :=
  if Text.lowercase stem = "" then 0
  else (if Meets stem c.name then 1 else 0) +
    (c.synonyms.map fun s => if Meets stem s then 1 / 2 else 0).sum

def worth (c : Concept) (words stems : List String) : ℚ :=
  (words.map c.wordWorth).sum + (stems.map c.stemWorth).sum

end Concept

/-- named values from high to low, equal ones in the order of the entries -/
structure Ranked (entries ranked : List (String × ℚ)) : Prop where
  perm : ranked.Perm entries
  descending : ranked.Pairwise fun a b => b.2 ≤ a.2
  ties : ∀ x : ℚ, ranked.filter (·.2 = x) = entries.filter (·.2 = x)

/-- a match with its score in whole points -/
def ConceptMatch.entry (m : ConceptMatch) : String × ℚ := (m.concept, (m.halfPoints : ℚ) / 2)

/-! ## half points -/

theorem occursIn_iff (s cs : List Char) : occursIn s cs = true ↔ s <:+: cs := by
  induction cs with
  | nil => rw [occursIn, List.isEmpty_iff, List.infix_nil]
  | cons c cs ih =>
    rw [occursIn, Bool.or_eq_true, ih, List.infix_cons_iff, List.isPrefixOf_iff_prefix]

theorem overlap_lowercase_iff (a b : String) :
    overlap (Text.lowercase a) (Text.lowercase b) = true ↔ Meets b a := by
  rw [overlap, Bool.or_eq_true, occursIn_iff, occursIn_iff]
  exact Or.comm

theorem half_wordPoints (c : Concept) (word : String) :
    (wordPoints c.terms (Text.lowercase word) : ℚ) / 2 = c.wordWorth word := by
  have hsynonyms : Text.lowercase word ∈ c.terms.synonyms ↔
      ∃ s ∈ c.synonyms, Text.lowercase word = Text.lowercase s := by
    simp [Concept.terms, eq_comm]
  have hname : c.terms.name = Text.lowercase word ↔
      Text.lowercase word = Text.lowercase c.name := eq_comm
  unfold wordPoints Concept.wordWorth
  by_cases h : Text.lowercase word = Text.lowercase c.name
  · rw [if_pos h, if_pos (hname.mpr h)]
    norm_num
  · rw [if_neg h, if_neg (mt hname.mp h)]
    by_cases hs : Text.lowercase word ∈ c.terms.synonyms
    · rw [if_pos hs, if_pos (hsynonyms.mp hs)]
      norm_num
    · rw [if_neg hs, if_neg (mt hsynonyms.mpr hs)]
      norm_num

theorem half_countP (stem : String) (synonyms : List String) :
    ((synonyms.map Text.lowercase).countP (overlap · (Text.lowercase stem)) : ℚ) / 2 =
      (synonyms.map fun s => if Meets stem s then 1 / 2 else 0).sum := by
  induction synonyms with
  | nil => norm_num
  | cons s synonyms ih =>
    rw [List.map_cons, List.countP_cons, List.map_cons, List.sum_cons, ← ih]
    by_cases hs : Meets stem s
    · rw [if_pos ((overlap_lowercase_iff s stem).mpr hs), if_pos hs]
      push_cast
      ring
    · rw [if_neg fun h => hs ((overlap_lowercase_iff s stem).mp h), if_neg hs]
      push_cast
      ring

theorem half_stemPoints (c : Concept) (stem : String) :
    (stemPoints c.terms (Text.lowercase stem) : ℚ) / 2 = c.stemWorth stem := by
  have hname : ((if overlap c.terms.name (Text.lowercase stem) then 2 else 0 : Nat) : ℚ) / 2 =
      if Meets stem c.name then 1 else 0 := by
    have hmeets : overlap c.terms.name (Text.lowercase stem) = true ↔ Meets stem c.name :=
      overlap_lowercase_iff c.name stem
    by_cases h : Meets stem c.name
    · rw [if_pos h, if_pos (hmeets.mpr h)]
      norm_num
    · rw [if_neg h, if_neg (mt hmeets.mp h)]
      norm_num
  unfold stemPoints Concept.stemWorth
  by_cases hstem : Text.lowercase stem = ""
  · rw [if_pos hstem, if_pos hstem]
    norm_num
  · rw [if_neg hstem, if_neg hstem, Nat.cast_add, add_div, hname, ← half_countP]
    rfl

theorem half_total {α : Type} (points : α → Nat) (worth : α → ℚ)
    (h : ∀ x, (points x : ℚ) / 2 = worth x) (l : List α) :
    (total points l : ℚ) / 2 = (l.map worth).sum := by
  induction l with
  | nil => norm_num [total]
  | cons x l ih =>
    rw [total_cons, List.map_cons, List.sum_cons, ← h, ← ih]
    push_cast
    ring

/-- what a concept scores -/
def Concept.points (c : Concept) (words stems : List String) : Nat :=
  halfPoints c.terms (words.map Text.lowercase) (stems.map Text.lowercase)

theorem half_points (c : Concept) (words stems : List String) :
    (c.points words stems : ℚ) / 2 = c.worth words stems := by
  have hwords := half_total (fun w => wordPoints c.terms (Text.lowercase w)) _
    (half_wordPoints c) words
  have hstems := half_total (fun s => stemPoints c.terms (Text.lowercase s)) _
    (half_stemPoints c) stems
  rw [Concept.points, halfPoints, total_map, total_map, Concept.worth, ← hwords, ← hstems]
  push_cast
  ring

theorem points_pos_iff (c : Concept) (words stems : List String) :
    0 < c.points words stems ↔ 0 < c.worth words stems := by
  rw [← half_points, div_pos_iff_of_pos_right (by norm_num), Nat.cast_pos]

/-! ## putting matches into their places -/

/-- from high to low -/
def Descending (ms : List ConceptMatch) : Prop :=
  ms.Pairwise fun a b => b.halfPoints ≤ a.halfPoints

theorem perm_insertRanked (m : ConceptMatch) (ms : List ConceptMatch) :
    (insertRanked m ms).Perm (m :: ms) := by
  induction ms with
  | nil => exact List.Perm.refl _
  | cons x ms ih =>
    unfold insertRanked
    by_cases h : x.halfPoints < m.halfPoints
    · rw [if_pos h]
    · rw [if_neg h]
      exact (ih.cons x).trans (List.Perm.swap m x ms)

theorem descending_insertRanked (m : ConceptMatch) {ms : List ConceptMatch} (h : Descending ms) :
    Descending (insertRanked m ms) := by
  induction ms with
  | nil => exact List.pairwise_singleton _ _
  | cons x ms ih =>
    obtain ⟨hx, hms⟩ := List.pairwise_cons.mp h
    unfold insertRanked
    by_cases hm : x.halfPoints < m.halfPoints
    · rw [if_pos hm]
      refine List.pairwise_cons.mpr ⟨?_, h⟩
      intro y hy
      rcases List.mem_cons.mp hy with rfl | hy
      · omega
      · have := hx y hy
        omega
    · rw [if_neg hm]
      refine List.pairwise_cons.mpr ⟨?_, ih hms⟩
      intro y hy
      rcases List.mem_cons.mp ((perm_insertRanked m ms).mem_iff.mp hy) with rfl | hy
      · omega
      · exact hx y hy

/-- a match comes behind those that score the same, so a choice among equals keeps their order -/
theorem filter_insertRanked {p : ConceptMatch → Bool}
    (hp : ∀ a b, p a = true → p b = true → a.halfPoints = b.halfPoints) (m : ConceptMatch)
    {ms : List ConceptMatch} (h : Descending ms) :
    (insertRanked m ms).filter p = ms.filter p ++ [m].filter p := by
  induction ms with
  | nil => rfl
  | cons x ms ih =>
    obtain ⟨hx, hms⟩ := List.pairwise_cons.mp h
    unfold insertRanked
    by_cases hm : x.halfPoints < m.halfPoints
    · rw [if_pos hm]
      by_cases hpm : p m = true
      · -- all that stand behind score less
        have hnone : (x :: ms).filter p = [] := by
          refine List.filter_eq_nil_iff.mpr ?_
          intro y hy hpy
          have heq := hp y m hpy hpm
          rcases List.mem_cons.mp hy with rfl | hy
          · omega
          · have := hx y hy
            omega
        rw [List.filter_cons_of_pos hpm, hnone, List.filter_cons_of_pos hpm]
        rfl
      · rw [List.filter_cons_of_neg hpm, List.filter_cons_of_neg hpm]
        exact (List.append_nil _).symm
    · rw [if_neg hm]
      by_cases hpx : p x = true
      · rw [List.filter_cons_of_pos hpx, List.filter_cons_of_pos hpx, ih hms, List.cons_append]
      · rw [List.filter_cons_of_neg hpx, List.filter_cons_of_neg hpx, ih hms]

/-- matches put into their places one after the other -/
def inserted (ms ranked : List ConceptMatch) : List ConceptMatch :=
  ms.foldl (fun ranked m => insertRanked m ranked) ranked

theorem perm_inserted (ms ranked : List ConceptMatch) :
    (inserted ms ranked).Perm (ranked ++ ms) := by
  induction ms generalizing ranked with
  | nil => rw [List.append_nil]; exact List.Perm.refl _
  | cons m ms ih =>
    refine (ih (insertRanked m ranked)).trans ?_
    exact ((perm_insertRanked m ranked).append_right ms).trans List.perm_middle.symm

theorem descending_inserted (ms : List ConceptMatch) {ranked : List ConceptMatch}
    (h : Descending ranked) : Descending (inserted ms ranked) := by
  induction ms generalizing ranked with
  | nil => exact h
  | cons m ms ih => exact ih (descending_insertRanked m h)

theorem filter_inserted {p : ConceptMatch → Bool}
    (hp : ∀ a b, p a = true → p b = true → a.halfPoints = b.halfPoints) (ms : List ConceptMatch)
    {ranked : List ConceptMatch} (h : Descending ranked) :
    (inserted ms ranked).filter p = (ranked ++ ms).filter p := by
  induction ms generalizing ranked with
  | nil => rw [List.append_nil]; rfl
  | cons m ms ih =>
    have hrest := ih (descending_insertRanked m h)
    rw [List.filter_append, filter_insertRanked hp m h, List.append_assoc, ← List.filter_append,
      List.singleton_append, ← List.filter_append] at hrest
    exact hrest

/-! ## the ranking -/

namespace KnowledgeBase

/-- the concepts with points, in the order of the base -/
def matching (kb : KnowledgeBase) (words stems : List String) : List ConceptMatch :=
  (kb.filter (0 < ·.points words stems)).map fun c => ⟨c.name, c.points words stems⟩

theorem rank_eq (kb : KnowledgeBase) (words stems : List String) :
    kb.rank words stems = inserted (kb.matching words stems) [] := by
  have hscored := scored_eq kb (·.points words stems)
  rw [rank, Scores.ofTexts_eq, List.map_map, matching, ← hscored]
  rfl

theorem perm_rank (kb : KnowledgeBase) (words stems : List String) :
    (kb.rank words stems).Perm (kb.matching words stems) := by
  rw [rank_eq]
  exact perm_inserted _ _

/-- the concepts that are worth something, in the order of the base -/
def entries (kb : KnowledgeBase) (words stems : List String) : List (String × ℚ) :=
  (kb.map fun c => (c.name, c.worth words stems)).filter (0 < ·.2)

theorem map_entry_matching (kb : KnowledgeBase) (words stems : List String) :
    (kb.matching words stems).map ConceptMatch.entry = kb.entries words stems := by
  have hkeep : ∀ c ∈ kb, decide (0 < c.points words stems) =
      decide (0 < c.worth words stems) := fun c _ =>
    decide_eq_decide.mpr (points_pos_iff c words stems)
  rw [matching, entries, List.filter_map, List.map_map, List.filter_congr hkeep]
  exact List.map_congr_left fun c _ => Prod.ext rfl (half_points c words stems)

theorem rank_of_perm (kb : KnowledgeBase) {words words' stems stems' : List String}
    (hwords : words'.Perm words) (hstems : stems'.Perm stems) :
    kb.rank words' stems' = kb.rank words stems := by
  have hpoints : ∀ c : Concept, c.points words' stems' = c.points words stems := by
    intro c
    unfold Concept.points halfPoints
    rw [total_of_perm _ (hwords.map _), total_of_perm _ (hstems.map _)]
  rw [rank_eq, rank_eq, matching, matching]
  simp only [hpoints]

/-- **The ranking is by worth**: the concepts that are worth something, from high to low and equal
ones in the order of the base, however the words and the stems are ordered. -/
theorem ranked_rank (kb : KnowledgeBase) (words stems : List String) :
    Ranked (kb.entries words stems) ((kb.rank words stems).map ConceptMatch.entry) ∧
      ∀ words' stems' : List String, words'.Perm words → stems'.Perm stems →
        kb.rank words' stems' = kb.rank words stems := by
  refine ⟨⟨?_, ?_, ?_⟩, fun _ _ hwords hstems => kb.rank_of_perm hwords hstems⟩
  · rw [← map_entry_matching]
    exact (kb.perm_rank words stems).map _
  · have hdescending := descending_inserted (kb.matching words stems) List.Pairwise.nil
    rw [← rank_eq] at hdescending
    refine List.pairwise_map.mpr (hdescending.imp ?_)
    intro a b hab
    exact div_le_div_of_nonneg_right (Nat.cast_le.mpr hab) (by norm_num)
  · intro x
    have hone : ∀ a b : ConceptMatch, decide (a.entry.2 = x) = true →
        decide (b.entry.2 = x) = true → a.halfPoints = b.halfPoints := by
      intro a b ha hb
      have hab : (a.halfPoints : ℚ) / 2 = (b.halfPoints : ℚ) / 2 :=
        (of_decide_eq_true ha).trans (of_decide_eq_true hb).symm
      exact Nat.cast_injective ((div_left_inj' two_ne_zero).mp hab)
    have hties := filter_inserted hone (kb.matching words stems) List.Pairwise.nil
    rw [← rank_eq, List.nil_append] at hties
    rw [← map_entry_matching, List.filter_map, List.filter_map]
    exact congrArg _ hties

def pets : KnowledgeBase :=
  [⟨"Gato", ["felino"], [], ""⟩, ⟨"Perro", ["can"], [], ""⟩, ⟨"Felino", [], [], ""⟩]

/-- the last is worth 4, and the first two 5/2 each -/
theorem rank_pets :
    pets.rank ["can", "felino"] ["can", "felin"] = [⟨"Felino", 8⟩, ⟨"Gato", 5⟩, ⟨"Perro", 5⟩] ∧
      Ranked (pets.entries ["can", "felino"] ["can", "felin"])
        ((pets.rank ["can", "felino"] ["can", "felin"]).map ConceptMatch.entry) ∧
      pets.rank ["felino", "can"] ["felin", "can"] =
        pets.rank ["can", "felino"] ["can", "felin"] := by
  obtain ⟨hranked, hperm⟩ := ranked_rank pets ["can", "felino"] ["can", "felin"]
  exact ⟨by decide +kernel, hranked, hperm _ _ (.swap _ _ []) (.swap _ _ [])⟩

end KnowledgeBase

end SpanishSyntax.Semantic
