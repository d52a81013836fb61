import Mathlib.Data.List.Nodup
import SpanishSyntax.Proofs.Semantic.Ranking
import SpanishSyntax.Semantic.Report

/-!
# What a semantic report relates and suggests

A ranked concept is looked up by its name, so the concepts that are found bear the names of the
ranking in its order (`names_found`), and they are the ranked ones if no two concepts share a name.

* `Report.Suggests`    the suggestions are the associations of the concepts that the ranking evokes
                       and that evoke none themselves, each where it comes first;
* `Report.Relates`     the relations are the pairs of the ranking, from the earlier to the later,
                       of which either lists the other, each once;
* `Matcher.exact_report`   a report suggests so, and relates so where the names are distinct.
-/

namespace SpanishSyntax.Semantic

/-- some association is the name, up to case -/
def Concept.Lists (c : Concept) (name : String) : Prop :=
  ∃ a ∈ c.associations, Text.lowercase a = Text.lowercase name

/-- concepts of the base with these names, of which either lists the other -/
def KnowledgeBase.Links (kb : KnowledgeBase) (a b : String) : Prop :=
  ∃ c ∈ kb, ∃ d ∈ kb, c.name = a ∧ d.name = b ∧ (c.Lists b ∨ d.Lists a)

namespace Report

/-- the names of the concepts in the order of the ranking -/
def names (r : Report) : List String := r.concepts.map (·.concept)

/-- a ranked concept has the name, up to case -/
def Evokes (r : Report) (name : String) : Prop :=
  ∃ n ∈ r.names, Text.lowercase n = Text.lowercase name

instance (r : Report) (name : String) : Decidable (r.Evokes name) :=
  inferInstanceAs (Decidable (∃ n ∈ r.names, Text.lowercase n = Text.lowercase name))

/-- the associations of the evoked concepts, as the base and they themselves list them -/
def associations (r : Report) (kb : KnowledgeBase) : List String :=
  (kb.filter (r.Evokes ·.name)).flatMap (·.associations)

structure Suggests (r : Report) (kb : KnowledgeBase) : Prop where
  nodup : r.suggestions.Nodup
  /-- each stands where it comes first -/
  order : r.suggestions.Pairwise fun a b =>
    (r.associations kb).idxOf a < (r.associations kb).idxOf b
  mem_iff : ∀ s, s ∈ r.suggestions ↔
    (∃ c ∈ kb, r.Evokes c.name ∧ s ∈ c.associations) ∧ ¬ r.Evokes s

structure Relates (r : Report) (kb : KnowledgeBase) : Prop where
  nodup_names : r.names.Nodup
  mem_iff : ∀ a b, ⟨a, b⟩ ∈ r.relations ↔ [a, b].Sublist r.names ∧ kb.Links a b
  /-- by the place of the source, and for one source by that of the target -/
  order : r.relations.Pairwise fun x y => r.names.idxOf x.source < r.names.idxOf y.source ∨
    x.source = y.source ∧ r.names.idxOf x.target < r.names.idxOf y.target
  irrefl : ∀ x ∈ r.relations, x.source ≠ x.target
  /-- neither twice nor both ways -/
  once : r.relations.Pairwise fun x y => x ≠ y ∧ x ≠ ⟨y.target, y.source⟩

end Report

/-! ## each text once -/

theorem mem_distinct {s : String} {seen ss : List String} :
    s ∈ distinct seen ss ↔ s ∈ ss ∧ s ∉ seen := by
  induction ss generalizing seen with
  | nil => exact ⟨fun h => (nomatch h), fun h => (nomatch h.1)⟩
  | cons t ss ih =>
    unfold distinct
    by_cases ht : t ∈ seen
    · rw [if_pos ht, ih, List.mem_cons]
      refine ⟨fun h => ⟨.inr h.1, h.2⟩, fun h => ⟨h.1.resolve_left ?_, h.2⟩⟩
      intro hst
      exact h.2 (hst ▸ ht)
    · rw [if_neg ht, List.mem_cons, ih, List.mem_cons, List.mem_cons]
      by_cases hst : s = t
      · simp [hst, ht]
      · simp [hst]

/-- what is kept of a filtered list stands as it comes first in the whole list -/
theorem pairwise_distinct_filter (p : String → Bool) (seen ss : List String) :
    (distinct seen (ss.filter p)).Pairwise fun a b => ss.idxOf a < ss.idxOf b := by
  induction ss generalizing seen with
  | nil => exact List.Pairwise.nil
  | cons t ss ih =>
    have hbehind : ∀ {seen : List String}, (p t = true → t ∈ seen) →
        (distinct seen (ss.filter p)).Pairwise fun a b =>
          (t :: ss).idxOf a < (t :: ss).idxOf b := by
      intro seen ht
      have hne : ∀ a ∈ distinct seen (ss.filter p), t ≠ a := by
        rintro a ha rfl
        obtain ⟨hin, hnew⟩ := mem_distinct.mp ha
        exact hnew (ht (List.mem_filter.mp hin).2)
      refine (ih seen).imp_of_mem ?_
      intro a b ha hb hab
      rw [List.idxOf_cons_ne ss (hne a ha), List.idxOf_cons_ne ss (hne b hb)]
      omega
    by_cases hp : p t = true
    · rw [List.filter_cons_of_pos hp, distinct]
      by_cases ht : t ∈ seen
      · rw [if_pos ht]
        exact hbehind fun _ => ht
      · rw [if_neg ht]
        refine List.pairwise_cons.mpr ⟨?_, hbehind fun _ => List.mem_cons_self⟩
        intro a ha
        have hne : t ≠ a := by
          rintro rfl
          exact (mem_distinct.mp ha).2 List.mem_cons_self
        rw [List.idxOf_cons_self, List.idxOf_cons_ne ss hne]
        omega
    · rw [List.filter_cons_of_neg hp]
      exact hbehind fun h => absurd h hp

/-! ## concepts looked up by name -/

theorem mem_of_get? {kb : KnowledgeBase} {name : String} {c : Concept}
    (h : kb.get? name = some c) : c ∈ kb ∧ c.name = name :=
  ⟨List.mem_of_find?_eq_some h, by simpa using List.find?_some h⟩

theorem exists_get? {kb : KnowledgeBase} {name : String} (h : ∃ c ∈ kb, c.name = name) :
    ∃ c, kb.get? name = some c := by
  obtain ⟨c, hc, hname⟩ := h
  exact Option.isSome_iff_exists.mp (List.find?_isSome.mpr ⟨c, hc, decide_eq_true hname⟩)

theorem names_found {kb : KnowledgeBase} {ms : List ConceptMatch}
    (h : ∀ m ∈ ms, ∃ c ∈ kb, c.name = m.concept) :
    (ms.filterMap (kb.get? ·.concept)).map (·.name) = ms.map (·.concept) := by
  induction ms with
  | nil => rfl
  | cons m ms ih =>
    obtain ⟨hm, hms⟩ := List.forall_mem_cons.mp h
    obtain ⟨c, hc⟩ := exists_get? hm
    simp only [List.filterMap_cons, hc, List.map_cons, (mem_of_get? hc).2, ih hms]

theorem mem_of_mem_found {kb : KnowledgeBase} {ms : List ConceptMatch} {c : Concept}
    (h : c ∈ ms.filterMap (kb.get? ·.concept)) : c ∈ kb := by
  obtain ⟨m, _, hc⟩ := List.mem_filterMap.mp h
  exact (mem_of_get? hc).1

namespace KnowledgeBase

variable (kb : KnowledgeBase) (words stems : List String)

theorem names_matching : (kb.matching words stems).map (·.concept) =
    (kb.filter (0 < ·.points words stems)).map (·.name) := by
  rw [matching, List.map_map]
  rfl

theorem exists_of_mem_rank : ∀ m ∈ kb.rank words stems, ∃ c ∈ kb, c.name = m.concept := by
  intro m hm
  have hname : m.concept ∈ (kb.matching words stems).map (·.concept) :=
    List.mem_map_of_mem ((kb.perm_rank words stems).mem_iff.mp hm)
  rw [names_matching] at hname
  obtain ⟨c, hc, hcm⟩ := List.mem_map.mp hname
  exact ⟨c, (List.mem_filter.mp hc).1, hcm⟩

theorem nodup_names_rank (h : (kb.map (·.name)).Nodup) :
    ((kb.rank words stems).map (·.concept)).Nodup := by
  rw [((kb.perm_rank words stems).map _).nodup_iff, names_matching]
  exact h.sublist (List.filter_sublist.map _)

end KnowledgeBase

/-! ## names up to case -/

theorem sameWord_iff (a b : String) :
    sameWord a b = true ↔ Text.lowercase a = Text.lowercase b := beq_iff_eq

theorem isAssociatedWith_iff (c : Concept) (name : String) :
    c.isAssociatedWith name = true ↔ c.Lists name := by
  simp only [Concept.isAssociatedWith, List.any_eq_true, sameWord_iff, Concept.Lists]

theorem related_iff (a b : Concept) :
    related a b = true ↔ a.Lists b.name ∨ b.Lists a.name := by
  rw [related, Bool.or_eq_true, isAssociatedWith_iff, isAssociatedWith_iff]

theorem isMatched_iff {r : Report} {found : List Concept} (h : found.map (·.name) = r.names)
    (name : String) : isMatched found name = true ↔ r.Evokes name := by
  rw [Report.Evokes, ← h]
  simp only [isMatched, List.any_eq_true, sameWord_iff, List.mem_map, exists_exists_and_eq_and]

theorem isMatched_eq {r : Report} {found : List Concept} (h : found.map (·.name) = r.names)
    (name : String) : isMatched found name = decide (r.Evokes name) := by
  rw [Bool.eq_iff_iff, isMatched_iff h, decide_eq_true_iff]

/-! ## suggestions -/

theorem suggestionsFor_eq {r : Report} {found : List Concept} (h : found.map (·.name) = r.names)
    (kb : KnowledgeBase) : suggestionsFor kb found =
      distinct [] ((r.associations kb).filter fun s => !decide (r.Evokes s)) := by
  unfold suggestionsFor Report.associations
  simp only [isMatched_eq h, List.filter_flatMap]

theorem suggests_of_names {r : Report} {kb : KnowledgeBase} {found : List Concept}
    (h : found.map (·.name) = r.names) (hs : r.suggestions = suggestionsFor kb found) :
    r.Suggests kb := by
  rw [suggestionsFor_eq h] at hs
  have horder := pairwise_distinct_filter (fun s => !decide (r.Evokes s)) [] (r.associations kb)
  rw [← hs] at horder
  refine ⟨horder.imp fun hab heq => ?_, horder, ?_⟩
  · rw [heq] at hab
    exact Nat.lt_irrefl _ hab
  · intro s
    rw [hs, mem_distinct, List.mem_filter, Report.associations, List.mem_flatMap]
    simp only [List.mem_filter, decide_eq_true_iff, Bool.not_eq_true', decide_eq_false_iff_not,
      List.not_mem_nil, not_false_eq_true, and_true, and_assoc]

/-! ## relations -/

theorem mem_relationsAmong {cs : List Concept} {x : Relation} :
    x ∈ relationsAmong cs ↔
      ∃ a b : Concept, [a, b].Sublist cs ∧ related a b = true ∧ x = ⟨a.name, b.name⟩ := by
  induction cs with
  | nil =>
    refine ⟨fun h => (nomatch h), ?_⟩
    rintro ⟨a, b, hsub, _⟩
    cases hsub
  | cons c cs ih =>
    rw [relationsAmong, List.mem_append, ih, List.mem_map]
    constructor
    · rintro (⟨d, hd, rfl⟩ | ⟨a, b, hsub, hab⟩)
      · obtain ⟨hin, hcd⟩ := List.mem_filter.mp hd
        exact ⟨c, d, (List.singleton_sublist.mpr hin).cons_cons c, hcd, rfl⟩
      · exact ⟨a, b, hsub.cons c, hab⟩
    · rintro ⟨a, b, hsub, hab, rfl⟩
      cases hsub with
      | cons _ hsub => exact .inr ⟨a, b, hsub, hab, rfl⟩
      | cons_cons _ hsub =>
        exact .inl ⟨b, List.mem_filter.mpr ⟨List.singleton_sublist.mp hsub, hab⟩, rfl⟩

/-- pairs go by the place of the earlier concept, and then by that of the later one -/
theorem pairwise_relationsAmong (place : String → Nat) {cs : List Concept}
    (h : cs.Pairwise fun a b => place a.name < place b.name) :
    (relationsAmong cs).Pairwise fun x y => place x.source < place y.source ∨
      x.source = y.source ∧ place x.target < place y.target := by
  induction cs with
  | nil => exact List.Pairwise.nil
  | cons c cs ih =>
    obtain ⟨hc, hcs⟩ := List.pairwise_cons.mp h
    refine List.pairwise_append.mpr ⟨?_, ih hcs, ?_⟩
    · refine List.pairwise_map.mpr ((hcs.sublist List.filter_sublist).imp ?_)
      intro a b hab
      exact .inr ⟨rfl, hab⟩
    · intro x hx y hy
      obtain ⟨d, _, rfl⟩ := List.mem_map.mp hx
      obtain ⟨a, b, hsub, _, rfl⟩ := mem_relationsAmong.mp hy
      exact .inl (hc a (hsub.subset List.mem_cons_self))

theorem pairwise_idxOf {l : List String} (h : l.Nodup) :
    l.Pairwise fun a b => l.idxOf a < l.idxOf b := by
  refine List.pairwise_iff_getElem.mpr ?_
  intro i j hi hj hij
  rw [h.idxOf_getElem i hi, h.idxOf_getElem j hj]
  exact hij

theorem source_before_target {found : List Concept} (h : (found.map (·.name)).Nodup)
    {x : Relation} (hx : x ∈ relationsAmong found) :
    (found.map (·.name)).idxOf x.source < (found.map (·.name)).idxOf x.target := by
  obtain ⟨a, b, hsub, _, rfl⟩ := mem_relationsAmong.mp hx
  have hpairwise := (pairwise_idxOf h).sublist (hsub.map Concept.name)
  exact List.rel_of_pairwise_cons hpairwise List.mem_cons_self

theorem mem_relationsAmong_iff_links {kb : KnowledgeBase} {found : List Concept}
    (hdistinct : (kb.map (·.name)).Nodup) (hfound : ∀ c ∈ found, c ∈ kb) (a b : String) :
    ⟨a, b⟩ ∈ relationsAmong found ↔ [a, b].Sublist (found.map (·.name)) ∧ kb.Links a b := by
  rw [mem_relationsAmong]
  constructor
  · rintro ⟨c, d, hsub, hcd, heq⟩
    obtain ⟨rfl, rfl⟩ := Relation.mk.inj heq
    have hc := hfound c (hsub.subset List.mem_cons_self)
    have hd := hfound d (hsub.subset (List.mem_cons_of_mem _ List.mem_cons_self))
    exact ⟨hsub.map Concept.name, c, hc, d, hd, rfl, rfl, (related_iff c d).mp hcd⟩
  · rintro ⟨hsub, c', hc', d', hd', hc'a, hd'b, hlinks⟩
    obtain ⟨pair, hpair, heq⟩ := List.sublist_map_iff.mp hsub
    obtain ⟨c, d, rfl⟩ : ∃ c d, pair = [c, d] := by
      refine List.length_eq_two.mp ?_
      have hlength := congrArg List.length heq
      rw [List.length_map] at hlength
      exact hlength.symm
    obtain ⟨hca, hrest⟩ := List.cons.inj heq
    obtain ⟨hdb, _⟩ := List.cons.inj hrest
    -- names are distinct, so the concepts that list each other are the ones that were found
    have hc : c' = c := List.inj_on_of_nodup_map hdistinct hc'
      (hfound c (hpair.subset List.mem_cons_self)) (hc'a.trans hca)
    have hd : d' = d := List.inj_on_of_nodup_map hdistinct hd'
      (hfound d (hpair.subset (List.mem_cons_of_mem _ List.mem_cons_self))) (hd'b.trans hdb)
    rw [hc, hd, hca, hdb] at hlinks
    exact ⟨c, d, hpair, (related_iff c d).mpr hlinks, Relation.mk.injEq .. ▸ ⟨hca, hdb⟩⟩

theorem relates_of_names {r : Report} {kb : KnowledgeBase} {found : List Concept}
    (hdistinct : (kb.map (·.name)).Nodup) (hnames : found.map (·.name) = r.names)
    (hnodup : r.names.Nodup) (hfound : ∀ c ∈ found, c ∈ kb)
    (hr : r.relations = relationsAmong found) : r.Relates kb := by
  have hplaces := pairwise_idxOf hnodup
  have hbefore : ∀ x ∈ r.relations, r.names.idxOf x.source < r.names.idxOf x.target := by
    rw [hr, ← hnames]
    exact fun x hx => source_before_target (hnames ▸ hnodup) hx
  have horder : r.relations.Pairwise fun x y =>
      r.names.idxOf x.source < r.names.idxOf y.source ∨
        x.source = y.source ∧ r.names.idxOf x.target < r.names.idxOf y.target := by
    rw [hr]
    rw [← hnames, List.pairwise_map, hnames] at hplaces
    exact pairwise_relationsAmong (r.names.idxOf ·) hplaces
  refine ⟨hnodup, ?_, horder, ?_, ?_⟩
  · intro a b
    rw [hr, ← hnames]
    exact mem_relationsAmong_iff_links hdistinct hfound a b
  · intro x hx heq
    have hlt := hbefore x hx
    rw [heq] at hlt
    exact Nat.lt_irrefl _ hlt
  · refine horder.imp_of_mem ?_
    intro x y hx hy hxy
    have hltx := hbefore x hx
    have hlty := hbefore y hy
    refine ⟨?_, ?_⟩
    · rintro rfl
      omega
    · intro heq
      rw [heq] at hxy hltx
      simp only at hxy hltx
      omega

namespace Matcher

/-- **A report is exact**: what it suggests are the associations of evoked concepts that evoke none,
each once and as they come first, and if no two concepts share a name, what it relates are the
linked pairs of the ranking, each once and as it ranks them. -/
theorem exact_report (m : Matcher) (words : List String) :
    (m.report words).Suggests m.knowledge ∧
      ((m.knowledge.map (·.name)).Nodup → (m.report words).Relates m.knowledge) := by
  let r := m.report words
  have hnames := names_found (m.knowledge.exists_of_mem_rank r.relevant r.stems)
  refine ⟨suggests_of_names hnames rfl, fun hdistinct => ?_⟩
  exact relates_of_names hdistinct hnames
    (m.knowledge.nodup_names_rank r.relevant r.stems hdistinct) (fun c hc => mem_of_mem_found hc)
    rfl

/-- the animal lists the dog in small letters -/
def ofDogs : Matcher where
  stopwords := ⟨["el"]⟩
  knowledge := [⟨"Animal", [], ["perro", "Selva"], ""⟩, ⟨"Perro", ["can"], ["hueso"], ""⟩]

/-- the two are related, and the dog is no suggestion -/
theorem report_ofDogs :
    ofDogs.report ["El", "can", "ANIMAL"] =
        ⟨["can", "ANIMAL"], ["can", "animal"], [⟨"Animal", 8⟩, ⟨"Perro", 5⟩],
          [⟨"Animal", "Perro"⟩], ["Selva", "hueso"]⟩ ∧
      (ofDogs.report ["El", "can", "ANIMAL"]).Suggests ofDogs.knowledge ∧
      (ofDogs.report ["El", "can", "ANIMAL"]).Relates ofDogs.knowledge :=
  ⟨by decide +kernel, (exact_report ofDogs _).1, (exact_report ofDogs _).2 (by decide)⟩

end Matcher

end SpanishSyntax.Semantic
