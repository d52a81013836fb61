import Mathlib.Data.List.Infix
import Mathlib.Data.String.Basic
import SpanishSyntax.Semantic.Truncation

/-!
# Stems lose one suffix of each group

What a group takes off a word is stated without a way to look for it: `LosesLongest keep suffixes`
says that of all suffixes that leave at least `keep` characters the longest is gone, or that there
is none.  This fixes the rest (`LosesLongest.unique`) and does not depend on the order in which the
suffixes are listed.  Both ways to strip a group meet it, the one that counts characters and the one
that cuts bytes, so they agree, and no cut falls inside a character (`Truncation.stem?_eq`).

* `Stripping`           the words on the way from a normal word to its stem, group by group;
* `stemBy_stripping`    every stem is reached so;
* `Stripping.length`    at least two characters stay, unless `mente` stood behind a single one;
* `stem_exact`          all of this, for any way to put a text into small letters.
-/

namespace SpanishSyntax.Semantic

def EndsIn (word suffix : String) : Prop := ∃ r : String, word = r ++ suffix

/-- without the suffix, at least `keep` characters of the word stay -/
def MayGo (keep : Nat) (word suffix : String) : Prop :=
  ∃ r : String, word = r ++ suffix ∧ keep ≤ r.length

/-- the longest of the suffixes that may go is gone -/
inductive LosesLongest (keep : Nat) (suffixes : List String) (word : String) : String → Prop where
  | none (h : ∀ s ∈ suffixes, ¬ MayGo keep word s) : LosesLongest keep suffixes word word
  | suffix {rest s : String} (hs : s ∈ suffixes) (hword : word = rest ++ s)
      (hkeep : keep ≤ rest.length)
      (longest : ∀ t ∈ suffixes, MayGo keep word t → t.length ≤ s.length) :
      LosesLongest keep suffixes word rest

def plurals : List String := ["es", "as", "os", "s"]

/-- words in `us` and `is` have no plural ending -/
structure LosesPlural (word rest : String) : Prop where
  invariable : EndsIn word "us" ∨ EndsIn word "is" → rest = word
  regular : ¬ (EndsIn word "us" ∨ EndsIn word "is") → LosesLongest 3 plurals word rest

/-- the words between a normal word and its stem -/
structure Stripping (normal stem : String) where
  singular : String
  /-- without the diminutive ending -/
  simple : String
  /-- without `mente` -/
  manner : String
  /-- without the verbal ending -/
  root : String
  plural : LosesPlural normal singular
  diminutive : LosesLongest 2 diminutives singular simple
  mente : LosesLongest 1 ["mente"] simple manner
  verbal : LosesLongest 2 verbals manner root
  nominal : LosesLongest 2 nominals root stem

/-! ## texts and their characters -/

theorem ofList_eq_append_iff {cs : List Char} {r s : String} :
    String.ofList cs = r ++ s ↔ cs = r.toList ++ s.toList := by
  rw [← String.toList_inj, String.toList_ofList, String.toList_append]

theorem endsWith_iff {cs : List Char} {s : String} :
    endsWith cs s = true ↔ EndsIn (String.ofList cs) s := by
  unfold endsWith EndsIn
  rw [List.isSuffixOf_iff_suffix]
  constructor
  · rintro ⟨r, hr⟩
    exact ⟨String.ofList r, by rw [ofList_eq_append_iff, String.toList_ofList, hr]⟩
  · rintro ⟨r, hr⟩
    exact ⟨r.toList, (ofList_eq_append_iff.mp hr).symm⟩

theorem dropLast_append (r s : List Char) : dropLast s.length (r ++ s) = r := by
  unfold dropLast
  rw [List.length_append, Nat.add_sub_cancel, List.take_left]

theorem eq_of_append_eq {r s r' s' : String} (h : r ++ s = r' ++ s')
    (hlength : s.length = s'.length) : r = r' := by
  have hchars : r.toList ++ s.toList = r'.toList ++ s'.toList := by
    rw [← String.toList_append, ← String.toList_append, h]
  exact String.toList_inj.mp (List.append_inj_left' hchars hlength)

theorem eq_of_endsIn {word s t : String} (hs : EndsIn word s) (ht : EndsIn word t)
    (hlength : s.length = t.length) : s = t := by
  obtain ⟨r, rfl⟩ := hs
  obtain ⟨r', hr'⟩ := ht
  have hchars : r.toList ++ s.toList = r'.toList ++ t.toList := by
    rw [← String.toList_append, ← String.toList_append, hr']
  exact String.toList_inj.mp (List.append_inj_right' hchars hlength)

/-- of two endings of a word the one with more characters has more bytes -/
theorem length_le_of_utf8ByteSize_le {word s t : String} (hs : EndsIn word s) (ht : EndsIn word t)
    (h : t.utf8ByteSize ≤ s.utf8ByteSize) : t.length ≤ s.length := by
  obtain ⟨r, rfl⟩ := hs
  obtain ⟨r', hr'⟩ := ht
  by_contra hlonger
  have hsuffix : s.toList <:+ t.toList := by
    have hin : s.toList <:+ (r ++ s).toList := ⟨r.toList, (String.toList_append ..).symm⟩
    have hin' : t.toList <:+ (r ++ s).toList := ⟨r'.toList, by rw [hr', String.toList_append]⟩
    refine List.suffix_of_suffix_length_le hin hin' ?_
    rw [String.length_toList, String.length_toList]
    omega
  obtain ⟨x, hx⟩ := hsuffix
  have hsplit : t = String.ofList x ++ s := by
    rw [← String.toList_inj, String.toList_append, String.toList_ofList, hx]
  rw [hsplit, String.utf8ByteSize_append] at h
  have hempty : String.ofList x = "" := String.utf8ByteSize_eq_zero_iff.mp (by omega)
  rw [hsplit, hempty, String.empty_append] at hlonger
  exact hlonger (Nat.le_refl _)

/-! ## the rest is fixed -/

theorem MayGo.endsIn {keep : Nat} {word s : String} (h : MayGo keep word s) : EndsIn word s := by
  obtain ⟨r, hr, _⟩ := h
  exact ⟨r, hr⟩

theorem mayGo_of_endsIn_iff {keep : Nat} {word s : String} (h : EndsIn word s) :
    MayGo keep word s ↔ s.length + keep ≤ word.length := by
  obtain ⟨r, rfl⟩ := h
  rw [String.length_append]
  constructor
  · rintro ⟨r', hr', hkeep⟩
    rw [eq_of_append_eq hr' rfl]
    omega
  · exact fun hlength => ⟨r, rfl, by omega⟩

namespace LosesLongest

variable {keep : Nat} {suffixes : List String} {word rest : String}

theorem unique {rest' : String} (h : LosesLongest keep suffixes word rest)
    (h' : LosesLongest keep suffixes word rest') : rest = rest' := by
  cases h with
  | none h =>
    cases h' with
    | none _ => rfl
    | suffix hs hword hkeep _ => exact absurd ⟨rest', hword, hkeep⟩ (h _ hs)
  | @suffix _ s hs hword hkeep longest =>
    cases h' with
    | none h' => exact absurd ⟨rest, hword, hkeep⟩ (h' s hs)
    | @suffix _ s' hs' hword' hkeep' longest' =>
      have hle := longest s' hs' ⟨rest', hword', hkeep'⟩
      have hge := longest' s hs ⟨rest, hword, hkeep⟩
      exact eq_of_append_eq (hword.symm.trans hword') (Nat.le_antisymm hge hle)

theorem of_perm {suffixes' : List String} (h : LosesLongest keep suffixes word rest)
    (hperm : suffixes'.Perm suffixes) : LosesLongest keep suffixes' word rest := by
  cases h with
  | none h => exact .none fun s hs => h s (hperm.mem_iff.mp hs)
  | suffix hs hword hkeep longest =>
    exact .suffix (hperm.mem_iff.mpr hs) hword hkeep fun t ht => longest t (hperm.mem_iff.mp ht)

theorem keep_le (h : LosesLongest keep suffixes word rest) (hword : keep ≤ word.length) :
    keep ≤ rest.length := by
  cases h with
  | none _ => exact hword
  | suffix _ _ hkeep _ => exact hkeep

/-- a word that is not longer than what is kept stays whole -/
theorem of_length_le (hword : word.length ≤ keep) (hne : ∀ s ∈ suffixes, s ≠ "") :
    LosesLongest keep suffixes word word := by
  refine .none fun s hs hgo => hne s hs ?_
  have hlength := (mayGo_of_endsIn_iff hgo.endsIn).mp hgo
  exact String.length_eq_zero_iff.mp (by omega)

theorem eq_or_append (h : LosesLongest keep suffixes word rest) :
    rest = word ∨ ∃ s ∈ suffixes, word = rest ++ s := by
  cases h with
  | none _ => exact .inl rfl
  | suffix hs hword _ _ => exact .inr ⟨_, hs, hword⟩

theorem isPrefix (h : LosesLongest keep suffixes word rest) : rest.toList <+: word.toList := by
  rcases h.eq_or_append with rfl | ⟨s, _, rfl⟩
  · exact List.prefix_rfl
  · rw [String.toList_append]
    exact List.prefix_append _ _

end LosesLongest

/-! ## suffixes by their characters -/

theorem length_ofList (cs : List Char) : (String.ofList cs).length = cs.length := by
  rw [← String.length_toList, String.toList_ofList]

theorem mayGo_iff {keep : Nat} {cs : List Char} {s : String} :
    MayGo keep (String.ofList cs) s ↔ endsWith cs s = true ∧ s.length + keep ≤ cs.length := by
  rw [endsWith_iff]
  constructor
  · intro hgo
    have hlength := (mayGo_of_endsIn_iff hgo.endsIn).mp hgo
    exact ⟨hgo.endsIn, length_ofList cs ▸ hlength⟩
  · rintro ⟨hends, hlength⟩
    rw [mayGo_of_endsIn_iff hends, length_ofList cs]
    exact hlength

theorem removable_iff {cs : List Char} {s : String} :
    removable cs s = true ↔ MayGo 2 (String.ofList cs) s := by
  rw [removable, Bool.and_eq_true, decide_eq_true_iff, mayGo_iff]
  rfl

/-- the largest number of a list, or the one to begin with -/
theorem foldl_max_spec (l : List Nat) (a : Nat) :
    l.foldl max a ∈ a :: l ∧ ∀ x ∈ a :: l, x ≤ l.foldl max a := by
  induction l generalizing a with
  | nil => exact ⟨List.mem_singleton_self a, fun x hx => Nat.le_of_eq (List.mem_singleton.mp hx)⟩
  | cons b l ih =>
    obtain ⟨hmem, hle⟩ := ih (max a b)
    have hmax := hle (max a b) List.mem_cons_self
    rw [List.foldl_cons]
    refine ⟨?_, fun x hx => ?_⟩
    · rcases List.mem_cons.mp hmem with heq | hmem
      · rw [heq]
        rcases Nat.le_total a b with hab | hba
        · rw [Nat.max_eq_right hab]
          exact List.mem_cons_of_mem _ List.mem_cons_self
        · rw [Nat.max_eq_left hba]
          exact List.mem_cons_self
      · exact List.mem_cons_of_mem _ (List.mem_cons_of_mem _ hmem)
    · rcases List.mem_cons.mp hx with rfl | hx
      · omega
      · rcases List.mem_cons.mp hx with rfl | hx
        · omega
        · exact hle x (List.mem_cons_of_mem _ hx)

theorem losesLongest_dropLast {keep : Nat} {suffixes : List String} {cs : List Char} {s : String}
    (hs : s ∈ suffixes) (hgo : MayGo keep (String.ofList cs) s)
    (longest : ∀ t ∈ suffixes, MayGo keep (String.ofList cs) t → t.length ≤ s.length) :
    LosesLongest keep suffixes (String.ofList cs) (String.ofList (dropLast s.length cs)) := by
  obtain ⟨r, hr, hkeep⟩ := hgo
  have hcs := ofList_eq_append_iff.mp hr
  have hrest : String.ofList (dropLast s.length cs) = r := by
    rw [hcs, ← String.length_toList, dropLast_append, String.ofList_toList]
  rw [hrest]
  exact .suffix hs hr hkeep longest

section
variable {suffixes : List String} {cs : List Char}

theorem length_le_longestRemovable {t : String} (ht : t ∈ suffixes)
    (hgo : MayGo 2 (String.ofList cs) t) : t.length ≤ longestRemovable cs suffixes := by
  have hin : t ∈ suffixes.filter (removable cs) :=
    List.mem_filter.mpr ⟨ht, removable_iff.mpr hgo⟩
  exact (foldl_max_spec _ 0).2 _ (List.mem_cons_of_mem 0 (List.mem_map_of_mem hin))

/-- the number is the length of a suffix that may go, be it the empty one -/
theorem exists_longestRemovable (h : ∃ s ∈ suffixes, MayGo 2 (String.ofList cs) s) :
    ∃ s ∈ suffixes, MayGo 2 (String.ofList cs) s ∧ s.length = longestRemovable cs suffixes := by
  rcases List.mem_cons.mp (foldl_max_spec ((suffixes.filter (removable cs)).map String.length) 0).1
    with hzero | hmem
  · obtain ⟨s, hs, hgo⟩ := h
    have hle := length_le_longestRemovable hs hgo
    exact ⟨s, hs, hgo, by unfold longestRemovable at hle ⊢; omega⟩
  · obtain ⟨s, hs, hlength⟩ := List.mem_map.mp hmem
    obtain ⟨hs, hgo⟩ := List.mem_filter.mp hs
    exact ⟨s, hs, removable_iff.mp hgo, hlength⟩

theorem stripLongest_of_none (h : ∀ s ∈ suffixes, ¬ MayGo 2 (String.ofList cs) s) :
    stripLongest suffixes cs = cs := by
  have hempty : suffixes.filter (removable cs) = [] :=
    List.filter_eq_nil_iff.mpr fun s hs hgo => h s hs (removable_iff.mp hgo)
  rw [stripLongest, longestRemovable, hempty]
  exact List.take_length

end

theorem losesLongest_stripLongest (suffixes : List String) (cs : List Char) :
    LosesLongest 2 suffixes (String.ofList cs) (String.ofList (stripLongest suffixes cs)) := by
  by_cases hsome : ∃ s ∈ suffixes, MayGo 2 (String.ofList cs) s
  · obtain ⟨s, hs, hgo, hlength⟩ := exists_longestRemovable hsome
    unfold stripLongest
    rw [← hlength]
    refine losesLongest_dropLast hs hgo fun t ht hgo' => ?_
    rw [hlength]
    exact length_le_longestRemovable ht hgo'
  · have hnone : ∀ s ∈ suffixes, ¬ MayGo 2 (String.ofList cs) s := fun s hs hgo =>
      hsome ⟨s, hs, hgo⟩
    rw [stripLongest_of_none hnone]
    exact .none hnone

theorem losesLongest_stripMente (cs : List Char) :
    LosesLongest 1 ["mente"] (String.ofList cs) (String.ofList (stripMente cs)) := by
  have hmayGo : MayGo 1 (String.ofList cs) "mente" ↔ 5 < cs.length ∧ endsWith cs "mente" = true :=
    mayGo_iff.trans And.comm
  unfold stripMente
  by_cases h : 5 < cs.length ∧ endsWith cs "mente" = true
  · rw [if_pos h]
    refine losesLongest_dropLast (s := "mente") (List.mem_singleton_self _) (hmayGo.mpr h) ?_
    intro t ht _
    rw [List.mem_singleton.mp ht]
  · rw [if_neg h]
    refine .none fun s hs hgo => h (hmayGo.mp ?_)
    rwa [← List.mem_singleton.mp hs]

/-! ## plurals -/

/-- the endings of two letters -/
def longPlurals : List String := ["es", "as", "os"]

theorem long_plural {s : String} (h : s ∈ longPlurals) :
    s ∈ plurals ∧ s.length = 2 ∧ s ≠ "us" ∧ s ≠ "is" := by
  have hall : ∀ s ∈ longPlurals, s ∈ plurals ∧ s.length = 2 ∧ s ≠ "us" ∧ s ≠ "is" := by decide
  exact hall s h

theorem plural_cases {s : String} (h : s ∈ plurals) : s ∈ longPlurals ∨ s = "s" := by
  have hall : ∀ s ∈ plurals, s ∈ longPlurals ∨ s = "s" := by decide
  exact hall s h

section
variable {cs : List Char}

theorem longPlural_iff :
    (4 < cs.length ∧
      (endsWith cs "es" = true ∨ endsWith cs "as" = true ∨ endsWith cs "os" = true)) ↔
      ∃ s ∈ longPlurals, MayGo 3 (String.ofList cs) s := by
  simp only [longPlurals, List.mem_cons, List.not_mem_nil, or_false, exists_eq_or_imp,
    exists_eq_left, mayGo_iff]
  rw [and_or_left, and_or_left]
  exact or_congr And.comm (or_congr And.comm And.comm)

theorem shortPlural_iff :
    (3 < cs.length ∧ endsWith cs "s" = true ∧ ¬endsWith cs "us" = true ∧
      ¬endsWith cs "is" = true) ↔
      MayGo 3 (String.ofList cs) "s" ∧
        ¬ (EndsIn (String.ofList cs) "us" ∨ EndsIn (String.ofList cs) "is") := by
  rw [mayGo_iff, not_or, ← endsWith_iff, ← endsWith_iff, ← and_assoc]
  exact and_congr_left fun _ => And.comm

theorem losesLongest_stripPlural
    (h : ¬ (EndsIn (String.ofList cs) "us" ∨ EndsIn (String.ofList cs) "is")) :
    LosesLongest 3 plurals (String.ofList cs) (String.ofList (stripPlural cs)) := by
  unfold stripPlural
  by_cases hlong : ∃ s ∈ longPlurals, MayGo 3 (String.ofList cs) s
  · rw [if_pos (longPlural_iff.mpr hlong)]
    obtain ⟨s, hs, hgo⟩ := hlong
    obtain ⟨hplural, hlength, _⟩ := long_plural hs
    rw [← hlength]
    refine losesLongest_dropLast hplural hgo fun t ht _ => ?_
    rcases plural_cases ht with ht | rfl
    · exact Nat.le_of_eq ((long_plural ht).2.1.trans hlength.symm)
    · exact hlength ▸ Nat.le_succ 1
  · rw [if_neg (mt longPlural_iff.mp hlong)]
    have hshort : ∀ t ∈ plurals, MayGo 3 (String.ofList cs) t → t = "s" := fun t ht hgo =>
      (plural_cases ht).resolve_left fun ht => hlong ⟨t, ht, hgo⟩
    by_cases hgo : MayGo 3 (String.ofList cs) "s"
    · rw [if_pos (shortPlural_iff.mpr ⟨hgo, h⟩)]
      refine losesLongest_dropLast (s := "s") (by decide) hgo fun t ht hgo' => ?_
      rw [hshort t ht hgo']
    · rw [if_neg (mt shortPlural_iff.mp fun h => hgo h.1)]
      exact .none fun t ht hgo' => hgo (hshort t ht hgo' ▸ hgo')

theorem stripPlural_of_invariable
    (h : EndsIn (String.ofList cs) "us" ∨ EndsIn (String.ofList cs) "is") :
    stripPlural cs = cs := by
  have hlong : ¬ ∃ s ∈ longPlurals, MayGo 3 (String.ofList cs) s := by
    rintro ⟨s, hs, hgo⟩
    obtain ⟨_, hlength, hus, his⟩ := long_plural hs
    rcases h with h | h
    · exact hus (eq_of_endsIn hgo.endsIn h hlength)
    · exact his (eq_of_endsIn hgo.endsIn h hlength)
  unfold stripPlural
  rw [if_neg (mt longPlural_iff.mp hlong), if_neg (mt shortPlural_iff.mp fun hs => hs.2 h)]

theorem losesPlural_stripPlural (cs : List Char) :
    LosesPlural (String.ofList cs) (String.ofList (stripPlural cs)) :=
  ⟨fun h => congrArg String.ofList (stripPlural_of_invariable h), losesLongest_stripPlural⟩

end

/-! ## the way to a stem -/

theorem LosesPlural.keep_le {word rest : String} (h : LosesPlural word rest)
    (hword : 3 ≤ word.length) : 3 ≤ rest.length := by
  by_cases hinvariable : EndsIn word "us" ∨ EndsIn word "is"
  · rwa [h.invariable hinvariable]
  · exact (h.regular hinvariable).keep_le hword

theorem LosesPlural.isPrefix {word rest : String} (h : LosesPlural word rest) :
    rest.toList <+: word.toList := by
  by_cases hinvariable : EndsIn word "us" ∨ EndsIn word "is"
  · rw [h.invariable hinvariable]
  · exact (h.regular hinvariable).isPrefix

namespace Stripping

variable {normal stem : String}

theorem isPrefix (s : Stripping normal stem) : stem.toList <+: normal.toList :=
  s.nominal.isPrefix.trans (s.verbal.isPrefix.trans (s.mente.isPrefix.trans
    (s.diminutive.isPrefix.trans s.plural.isPrefix)))

/-- a word of one or two characters stays whole on all the way -/
def whole (word : String) (h : word.length ≤ 2) : Stripping word word where
  singular := word
  simple := word
  manner := word
  root := word
  plural := ⟨fun _ => rfl, fun _ => .of_length_le (by omega) (by decide)⟩
  diminutive := .of_length_le h (by decide)
  mente := by
    refine .none fun s hs hgo => ?_
    obtain rfl := List.mem_singleton.mp hs
    have hlength := (mayGo_of_endsIn_iff hgo.endsIn).mp hgo
    have hmente : "mente".length = 5 := rfl
    omega
  verbal := .of_length_le h (by decide)
  nominal := .of_length_le h (by decide)

/-- only `mente` can leave less than two characters, and what it leaves loses nothing more -/
theorem length (s : Stripping normal stem) (h : 2 < normal.length) :
    1 ≤ stem.length ∧
      (stem.length = 1 ↔ s.simple = s.manner ++ "mente" ∧ s.manner.length = 1) := by
  have hsimple := s.diminutive.keep_le (Nat.le_of_succ_le (s.plural.keep_le h))
  have hmanner := s.mente.keep_le (Nat.le_of_succ_le hsimple)
  by_cases htwo : 2 ≤ s.manner.length
  · have hstem := s.nominal.keep_le (s.verbal.keep_le htwo)
    exact ⟨by omega, fun hone => by omega, fun hone => by omega⟩
  · have hone : s.manner.length = 1 := by omega
    have hroot : s.root = s.manner :=
      s.verbal.unique (.of_length_le (by omega) (by decide))
    have hstem : stem = s.root :=
      s.nominal.unique (.of_length_le (by rw [hroot]; omega) (by decide))
    have hlength : stem.length = 1 := (congrArg String.length (hstem.trans hroot)).trans hone
    refine ⟨Nat.le_of_eq hlength.symm, fun _ => ⟨?_, hone⟩, fun _ => hlength⟩
    rcases s.mente.eq_or_append with hwhole | ⟨t, ht, hword⟩
    · rw [hwhole] at hone
      omega
    · rwa [List.mem_singleton.mp ht] at hword

end Stripping

theorem stemBy_of_length_le {lower : String → String} {word : String}
    (h : (normalizeBy lower word).length ≤ 2) : stemBy lower word = normalizeBy lower word := by
  rw [normalizeBy, length_ofList] at h
  unfold stemBy stemChars normalizeBy
  rw [if_pos h]

/-- the words that the groups leave one after the other -/
theorem stemBy_stripping (lower : String → String) (word : String) :
    Nonempty (Stripping (normalizeBy lower word) (stemBy lower word)) := by
  by_cases h : (normalizeBy lower word).length ≤ 2
  · rw [stemBy_of_length_le h]
    exact ⟨.whole _ h⟩
  · have hlong : ¬ (normalChars lower word).length ≤ 2 := by
      rwa [normalizeBy, length_ofList] at h
    unfold stemBy stemChars
    rw [if_neg hlong]
    exact ⟨⟨_, _, _, _, losesPlural_stripPlural _, losesLongest_stripLongest _ _,
      losesLongest_stripMente _, losesLongest_stripLongest _ _, losesLongest_stripLongest _ _⟩⟩

/-! ## cutting bytes -/

namespace Truncation

theorem cut?_append (r s : String) : cut? (r ++ s) s.utf8ByteSize = some r := by
  have hposition : (⟨(r ++ s).utf8ByteSize - s.utf8ByteSize⟩ : String.Pos.Raw) = r.rawEndPos := by
    rw [String.utf8ByteSize_append, Nat.add_sub_cancel]
    rfl
  have hvalid : r.rawEndPos.IsValid (r ++ s) :=
    String.Pos.Raw.isValid_iff_exists_append.mpr ⟨r, s, rfl, rfl⟩
  have hsplits : String.Pos.Splits ⟨r.rawEndPos, hvalid⟩ r s := ⟨rfl, rfl⟩
  unfold cut? truncate?
  rw [hposition, dif_pos hvalid]
  exact congrArg some hsplits.copy_sliceTo_eq

theorem cut?_of_endsWith {cs : List Char} {s : String} (h : endsWith cs s = true) :
    cut? (String.ofList cs) s.utf8ByteSize = some (String.ofList (dropLast s.length cs)) := by
  obtain ⟨r, hr⟩ := endsWith_iff.mp h
  have hcs := ofList_eq_append_iff.mp hr
  rw [hr, cut?_append, hcs, ← String.length_toList, dropLast_append, String.ofList_toList]

theorem mayGo_iff {rest : Nat} {word s : String} :
    mayGo rest word s = true ↔ MayGo (rest + 1) word s := by
  unfold mayGo
  rw [Bool.and_eq_true, decide_eq_true_iff]
  have h : MayGo (rest + 1) (String.ofList word.toList) s ↔ _ := Semantic.mayGo_iff
  rw [String.ofList_toList, String.length_toList] at h
  exact h.symm

theorem mem_byFallingSize {suffixes : List String} {s : String} :
    s ∈ byFallingSize suffixes ↔ s ∈ suffixes := List.mem_mergeSort

theorem pairwise_byFallingSize (suffixes : List String) :
    (byFallingSize suffixes).Pairwise fun s t => t.utf8ByteSize ≤ s.utf8ByteSize := by
  refine (List.pairwise_mergeSort ?_ ?_ suffixes).imp of_decide_eq_true
  · intro s t u hst htu
    exact decide_eq_true ((of_decide_eq_true htu).trans (of_decide_eq_true hst))
  · intro s t
    rw [Bool.or_eq_true, decide_eq_true_iff, decide_eq_true_iff]
    exact Nat.le_total ..

/-- the first that may go is the longest, for all of them are endings of one word -/
theorem exists_stripFirst? (suffixes : List String) (rest : Nat) (word : String) :
    ∃ r, stripFirst? suffixes rest word = some r ∧ LosesLongest (rest + 1) suffixes word r := by
  unfold stripFirst?
  cases hfind : (byFallingSize suffixes).find? (mayGo rest word) with
  | none =>
    refine ⟨word, rfl, .none fun s hs hgo => ?_⟩
    exact List.find?_eq_none.mp hfind s (mem_byFallingSize.mpr hs) (mayGo_iff.mpr hgo)
  | some s =>
    obtain ⟨hgo, before, behind, hsplit, hbefore⟩ := List.find?_eq_some_iff_append.mp hfind
    have hsorted := pairwise_byFallingSize suffixes
    rw [hsplit] at hsorted
    have hs : s ∈ suffixes := mem_byFallingSize.mp (by rw [hsplit]; simp)
    obtain ⟨r, rfl, hkeep⟩ := mayGo_iff.mp hgo
    refine ⟨r, cut?_append r s, .suffix hs rfl hkeep fun t ht hgo' => ?_⟩
    have hin := mem_byFallingSize.mpr ht
    rw [hsplit] at hin
    rcases List.mem_append.mp hin with hin | hin
    · have hno := hbefore t hin
      rw [mayGo_iff.mpr hgo'] at hno
      cases hno
    · rcases List.mem_cons.mp hin with rfl | hin
      · exact Nat.le_refl _
      · have hbehind := (List.pairwise_cons.mp (List.pairwise_append.mp hsorted).2.1).1 t hin
        exact length_le_of_utf8ByteSize_le ⟨r, rfl⟩ hgo'.endsIn hbehind

theorem stripFirst?_eq {suffixes suffixes' : List String} (h : suffixes'.Perm suffixes)
    (cs : List Char) : stripFirst? suffixes' 1 (String.ofList cs) =
      some (String.ofList (stripLongest suffixes cs)) := by
  obtain ⟨r, hr, hloses⟩ := exists_stripFirst? suffixes' 1 (String.ofList cs)
  rw [hr, (hloses.of_perm h.symm).unique (losesLongest_stripLongest suffixes cs)]

theorem stripPlural?_eq (cs : List Char) :
    stripPlural? (String.ofList cs) = some (String.ofList (stripPlural cs)) := by
  unfold stripPlural? stripPlural
  rw [length_ofList, String.toList_ofList]
  simp only [List.any_cons, List.any_nil, Bool.or_false, Bool.or_eq_true]
  by_cases hlong : 4 < cs.length ∧
      (endsWith cs "es" = true ∨ endsWith cs "as" = true ∨ endsWith cs "os" = true)
  · rw [if_pos hlong, if_pos hlong]
    rcases hlong.2 with h | h | h <;> exact cut?_of_endsWith h
  · rw [if_neg hlong, if_neg hlong]
    by_cases hshort : 3 < cs.length ∧ endsWith cs "s" = true ∧ ¬endsWith cs "us" = true ∧
        ¬endsWith cs "is" = true
    · rw [if_pos hshort, if_pos hshort]
      exact cut?_of_endsWith hshort.2.1
    · rw [if_neg hshort, if_neg hshort]

theorem stripMente?_eq (cs : List Char) :
    stripMente? (String.ofList cs) = some (String.ofList (stripMente cs)) := by
  unfold stripMente? stripMente
  rw [length_ofList, String.toList_ofList]
  by_cases h : 5 < cs.length ∧ endsWith cs "mente" = true
  · rw [if_pos h, if_pos h]
    exact cut?_of_endsWith h.2
  · rw [if_neg h, if_neg h]

end Truncation

/-- the three groups, each in any order -/
structure SuffixGroups.Reorders (groups : SuffixGroups) : Prop where
  diminutives : groups.diminutives.Perm Semantic.diminutives
  verbals : groups.verbals.Perm Semantic.verbals
  nominals : groups.nominals.Perm Semantic.nominals

/-- no cut fails, and the order in a group does not matter -/
theorem Truncation.stem?_eq {groups : SuffixGroups} (h : groups.Reorders)
    (lower : String → String) (word : String) :
    stem? groups lower word = some (stemBy lower word) := by
  unfold stem? stemBy stemChars
  dsimp only
  rw [normalizeBy, length_ofList]
  by_cases hshort : (normalChars lower word).length ≤ 2
  · rw [if_pos hshort, if_pos hshort]
  · rw [if_neg hshort, if_neg hshort, stripPlural?_eq, Option.bind_some,
      stripFirst?_eq h.diminutives, Option.bind_some, stripMente?_eq, Option.bind_some,
      stripFirst?_eq h.verbals, Option.bind_some, stripFirst?_eq h.nominals]

/-- **Stems**: whatever puts a text into small letters, a stem is the normal word without one suffix
of each group at most, with no character cut and whatever the order in a group; words of one or two
characters stay, and of longer ones at least two characters are left, unless `mente` stood behind a
single one. -/
theorem stem_exact (lower : String → String) (word : String) :
    (stemBy lower word).toList <+: (normalizeBy lower word).toList ∧
      ((normalizeBy lower word).length ≤ 2 → stemBy lower word = normalizeBy lower word) ∧
      (∃ s : Stripping (normalizeBy lower word) (stemBy lower word),
        2 < (normalizeBy lower word).length → 1 ≤ (stemBy lower word).length ∧
          ((stemBy lower word).length = 1 ↔
            s.simple = s.manner ++ "mente" ∧ s.manner.length = 1)) ∧
      ∀ groups : SuffixGroups, groups.Reorders →
        Truncation.stem? groups lower word = some (stemBy lower word) := by
  obtain ⟨s⟩ := stemBy_stripping lower word
  exact ⟨s.isPrefix, stemBy_of_length_le, ⟨s, s.length⟩,
    fun _ hgroups => Truncation.stem?_eq hgroups lower word⟩

/-- `acion` goes, although `cion` now stands before it -/
theorem stem_habitaciones : stem "Habitaciones" = "habit" ∧
    Truncation.stem? ⟨diminutives.reverse, verbals.reverse, nominals.reverse⟩ Text.lowercase
      "Habitaciones" = some "habit" := by
  have hstem : stemBy Text.lowercase "Habitaciones" = "habit" := by decide +kernel
  have hreorders : SuffixGroups.Reorders
      ⟨diminutives.reverse, verbals.reverse, nominals.reverse⟩ :=
    ⟨List.reverse_perm _, List.reverse_perm _, List.reverse_perm _⟩
  refine ⟨hstem, ?_⟩
  rw [(stem_exact Text.lowercase "Habitaciones").2.2.2 _ hreorders, hstem]

end SpanishSyntax.Semantic
