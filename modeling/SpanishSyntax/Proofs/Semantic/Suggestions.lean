import SpanishSyntax.Proofs.Semantic.Report

/-!
# Suggestions that are said already

A report drops a suggestion only if a ranked concept bears it as its name.  So a text is kept out of
the suggestions of a sentence that says it if a concept bears it as its name, for then the word
itself ranks that concept (`Matcher.evokes_of_says`).  A text that no concept bears as its name is
never dropped, and a stopword of the sentence ranks nothing.

* `Matcher.Catches`               the ranking can catch the text: some concept bears it as its name
                                  and it is no stopword;
* `Matcher.suggested_exact`       a suggestion that can be caught is not said; any other one is
                                  suggested still when the sentence says it;
* `Matcher.suggested_though_said` an association that is no concept is suggested to a sentence that
                                  says it.
-/

namespace SpanishSyntax.Semantic

/-- some word is the text, up to case -/
def Says (words : List String) (s : String) : Prop :=
  ∃ w ∈ words, Text.lowercase w = Text.lowercase s

/-- some concept bears the name, up to case -/
def KnowledgeBase.Names (kb : KnowledgeBase) (name : String) : Prop :=
  ∃ c ∈ kb, Text.lowercase c.name = Text.lowercase name

/-! ## what words and stems score -/

namespace Concept

variable (c : Concept)

theorem points_append (words words' stems stems' : List String) :
    c.points (words ++ words') (stems ++ stems') =
      c.points words stems + c.points words' stems' := by
  unfold points halfPoints
  rw [List.map_append, List.map_append, total_append, total_append]
  omega

theorem points_pos_of_says {words : List String} (h : Says words c.name) (stems : List String) :
    0 < c.points words stems := by
  obtain ⟨w, hw, hname⟩ := h
  have hword : wordPoints c.terms (Text.lowercase w) = 6 := if_pos hname.symm
  have hmem := le_total_of_mem (wordPoints c.terms) (List.mem_map_of_mem (f := Text.lowercase) hw)
  rw [hword] at hmem
  unfold points halfPoints
  omega

end Concept

namespace Matcher

variable (m : Matcher) (words : List String)

/-- the words that are no stopwords -/
def relevant : List String := words.filter (!m.stopwords.contains ·)

theorem relevant_append (words' : List String) :
    m.relevant (words ++ words') = m.relevant words ++ m.relevant words' := List.filter_append ..

theorem contains_of_lowercase {s w : String} (h : Text.lowercase w = Text.lowercase s) :
    m.stopwords.contains w = m.stopwords.contains s := by
  unfold Stopwords.contains
  rw [h]

theorem mem_names {n : String} : n ∈ (m.report words).names ↔
    ∃ c ∈ m.knowledge, 0 < c.points (m.relevant words) ((m.relevant words).map stem) ∧
      c.name = n := by
  have hnames := (m.knowledge.perm_rank (m.relevant words) ((m.relevant words).map stem)).map
    ConceptMatch.concept
  rw [KnowledgeBase.names_matching] at hnames
  refine hnames.mem_iff.trans ?_
  simp only [List.mem_map, List.mem_filter, decide_eq_true_iff, and_assoc]

theorem evokes_iff (name : String) : (m.report words).Evokes name ↔
    ∃ c ∈ m.knowledge, 0 < c.points (m.relevant words) ((m.relevant words).map stem) ∧
      Text.lowercase c.name = Text.lowercase name := by
  unfold Report.Evokes
  constructor
  · rintro ⟨n, hn, hname⟩
    obtain ⟨c, hc, hpoints, rfl⟩ := (m.mem_names words).mp hn
    exact ⟨c, hc, hpoints, hname⟩
  · rintro ⟨c, hc, hpoints, hname⟩
    exact ⟨c.name, (m.mem_names words).mpr ⟨c, hc, hpoints, rfl⟩, hname⟩

/-! ## what a word more changes -/

/-- words on top take nothing away from the ranking -/
theorem evokes_append {name : String} (h : (m.report words).Evokes name) (words' : List String) :
    (m.report (words ++ words')).Evokes name := by
  obtain ⟨c, hc, hpoints, hname⟩ := (m.evokes_iff words name).mp h
  refine (m.evokes_iff _ name).mpr ⟨c, hc, ?_, hname⟩
  rw [relevant_append, List.map_append, Concept.points_append]
  omega

theorem report_append_stopword {s : String} (h : m.stopwords.contains s = true) :
    m.report (words ++ [s]) = m.report words := by
  have hrelevant : m.relevant (words ++ [s]) = m.relevant words := by
    rw [relevant_append, relevant, relevant, List.filter_cons_of_neg (by simp [h]),
      List.filter_nil, List.append_nil]
  unfold report
  rw [show (words ++ [s]).filter _ = words.filter _ from hrelevant]

/-- a concept that the sentence names is ranked -/
theorem evokes_of_says {s : String} (hnames : m.knowledge.Names s)
    (hstop : m.stopwords.contains s = false) (hsaid : Says words s) :
    (m.report words).Evokes s := by
  obtain ⟨c, hc, hname⟩ := hnames
  obtain ⟨w, hw, hws⟩ := hsaid
  have hrelevant : w ∈ m.relevant words := by
    refine List.mem_filter.mpr ⟨hw, ?_⟩
    rw [m.contains_of_lowercase hws, hstop]
    rfl
  refine (m.evokes_iff words s).mpr ⟨c, hc, ?_, hname⟩
  exact c.points_pos_of_says ⟨w, hrelevant, hws.trans hname.symm⟩ _

/-! ## suggestions -/

/-- the ranking can catch the text -/
def Catches (s : String) : Prop := m.knowledge.Names s ∧ m.stopwords.contains s = false

/-- **What is suggested though it is said**: a suggestion that the ranking can catch is no word of
the sentence, and any other suggestion stays one when the sentence says it as well. -/
theorem suggested_exact {s : String} (hs : s ∈ (m.report words).suggestions) :
    (m.Catches s → ∀ w ∈ words, Text.lowercase s ≠ Text.lowercase w) ∧
      (¬ m.Catches s → s ∈ (m.report (words ++ [s])).suggestions) := by
  obtain ⟨⟨c, hc, hevoked, hassociation⟩, hnew⟩ := ((m.exact_report words).1.mem_iff s).mp hs
  refine ⟨fun hcatches w hw heq => ?_, fun hmissed => ?_⟩
  · exact hnew (m.evokes_of_says words hcatches.1 hcatches.2 ⟨w, hw, heq.symm⟩)
  · by_cases hstop : m.stopwords.contains s = true
    · rwa [m.report_append_stopword words hstop]
    · refine ((m.exact_report _).1.mem_iff s).mpr
        ⟨⟨c, hc, m.evokes_append words hevoked [s], hassociation⟩, fun hevokes => ?_⟩
      obtain ⟨d, hd, _, hname⟩ := (m.evokes_iff _ s).mp hevokes
      exact hmissed ⟨⟨d, hd, hname⟩, Bool.eq_false_iff.mpr hstop⟩

/-- the second association of the first concept is a concept, the first is none -/
def ofPrograms : Matcher where
  stopwords := ⟨["el"]⟩
  knowledge := [⟨"programar", ["codificar"], ["software", "algoritmo"], ""⟩,
    ⟨"Algoritmo", ["método"], [], ""⟩]

theorem suggested_ofPrograms :
    (ofPrograms.report ["el", "programar"]).suggestions = ["software", "algoritmo"] ∧
      (∀ w ∈ ["el", "programar"], Text.lowercase "algoritmo" ≠ Text.lowercase w) ∧
      "software" ∈ (ofPrograms.report (["el", "programar"] ++ ["software"])).suggestions := by
  have hsuggestions : (ofPrograms.report ["el", "programar"]).suggestions =
      ["software", "algoritmo"] := by decide +kernel
  have hcatches : ofPrograms.Catches "algoritmo" :=
    ⟨⟨⟨"Algoritmo", ["método"], [], ""⟩, by simp [ofPrograms], by decide +kernel⟩,
      by decide +kernel⟩
  have hmissed : ¬ ofPrograms.Catches "software" := by
    have hnone : ∀ c ∈ ofPrograms.knowledge,
        Text.lowercase c.name ≠ Text.lowercase "software" := by decide +kernel
    rintro ⟨⟨c, hc, hname⟩, _⟩
    exact hnone c hc hname
  refine ⟨hsuggestions, ?_, ?_⟩
  · exact (suggested_exact ofPrograms _ (by simp [hsuggestions])).1 hcatches
  · exact (suggested_exact ofPrograms _ (by simp [hsuggestions])).2 hmissed

/-- an association that is no concept is suggested to a sentence that says it -/
theorem suggested_though_said :
    ¬ ∀ (m : Matcher) (words : List String), ∀ s ∈ (m.report words).suggestions,
      ∀ w ∈ words, Text.lowercase s ≠ Text.lowercase w := by
  intro h
  have hsuggested : "software" ∈ (report ⟨⟨[]⟩, [⟨"programar", [], ["software"], ""⟩]⟩
      ["programar", "software"]).suggestions := by decide +kernel
  exact h _ _ "software" hsuggested "software" (by simp) rfl

end Matcher

end SpanishSyntax.Semantic
