import SpanishSyntax.Lexicon.Classifier
import SpanishSyntax.Proofs.Automaton.Blueprint

/-!
# The alphabet of a classifier

The alphabet automaton has a state before the first character and one behind it, and every symbol
leads to the latter.  It can be built exactly if no symbol is listed twice
(`wellFormed_alphabet_iff`).  A run of it stops at the first character outside the alphabet and
nowhere else (`stopsOutside_alphabet`), so with patterns that are compiled a vocabulary makes a
classifier exactly if its symbols are distinct (`exists_classifier_iff`).
-/

namespace SpanishSyntax.Lexicon

open Automaton Automaton.Blueprint

/-! ## the blueprint -/

theorem alphabetBlueprint_eq (symbols : List Char) : alphabetBlueprint symbols =
    ⟨"alphabet", "letters with Spanish diacritics, digits and punctuation",
      Ascending.ofList symbols, [("q0", false), ("q1", true)], some "q0",
      symbols.map (fun c => ⟨"q0", c, "q1"⟩) ++ symbols.map fun c => ⟨"q1", c, "q1"⟩⟩ := by
  unfold alphabetBlueprint ofClauses
  rw [List.foldl_append, List.foldl_append, foldl_fan, foldl_fan]
  rfl

theorem mem_edges_alphabet {symbols : List Char} {e : Edge} :
    e ∈ (alphabetBlueprint symbols).edges ↔
      (e.source = "q0" ∨ e.source = "q1") ∧ e.symbol ∈ symbols ∧ e.target = "q1" := by
  obtain ⟨source, symbol, target⟩ := e
  rw [alphabetBlueprint_eq]
  simp only [List.mem_append, List.mem_map, Edge.mk.injEq]
  constructor
  · rintro (⟨c, hc, rfl, rfl, rfl⟩ | ⟨c, hc, rfl, rfl, rfl⟩)
    · exact ⟨.inl rfl, hc, rfl⟩
    · exact ⟨.inr rfl, hc, rfl⟩
  · rintro ⟨rfl | rfl, hc, rfl⟩
    · exact .inl ⟨symbol, hc, rfl, rfl, rfl⟩
    · exact .inr ⟨symbol, hc, rfl, rfl, rfl⟩

theorem wellFormed_alphabet_iff {symbols : List Char} {i : String} :
    (alphabetBlueprint symbols).WellFormed i ↔ i = "q0" ∧ symbols.Nodup := by
  have hids : (alphabetBlueprint symbols).ids = ["q0", "q1"] := by rw [alphabetBlueprint_eq]; rfl
  have hedges : (alphabetBlueprint symbols).edges.Pairwise Apart ↔ symbols.Nodup := by
    rw [alphabetBlueprint_eq]
    dsimp only
    rw [List.pairwise_append, pairwise_apart_fan, pairwise_apart_fan]
    constructor
    · exact fun h => h.1
    · refine fun h => ⟨h, h, fun e he f hf => ?_⟩
      obtain ⟨c, _, rfl⟩ := List.mem_map.mp he
      obtain ⟨d, _, rfl⟩ := List.mem_map.mp hf
      simp [Apart]
  have hinitial : (alphabetBlueprint symbols).initial = some "q0" := by rw [alphabetBlueprint_eq]
  constructor
  · intro h
    exact ⟨Option.some.inj (h.initial.symm.trans hinitial), hedges.mp h.deterministic⟩
  · rintro ⟨rfl, hnodup⟩
    refine ⟨?_, hinitial, ?_, fun e he => ?_, hedges.mpr hnodup⟩
    · rw [hids]
      decide
    · rw [hids]
      exact List.mem_cons_self
    · obtain ⟨hsource, hsymbol, htarget⟩ := mem_edges_alphabet.mp he
      refine ⟨?_, ?_, ?_⟩
      · rw [hids]
        simpa using hsource
      · rw [alphabetBlueprint_eq]
        exact Ascending.mem_ofList.mpr hsymbol
      · rw [hids, htarget]
        decide

/-! ## runs -/

/-- the first character outside the alphabet stops the run, and nothing else does -/
def StopsOutside (symbols cs : List Char) (r : Simulation) : Prop :=
  r.halt.bind Halt.symbol? = cs.find? (fun c => c ∉ symbols) ∧
    (r.accepted = true ↔ ∀ c ∈ cs, c ∈ symbols)

section

variable {a : Automaton} {symbols : List Char}

theorem stopsOutside_cons {s t : State} {c : Char} {cs : List Char} {n : Nat}
    (hmem : c ∈ a.alphabet ↔ c ∈ symbols) (hstep : c ∈ symbols → a.step? s c = some t)
    (h : StopsOutside symbols cs (a.simulateFrom t (n + 1) cs)) :
    StopsOutside symbols (c :: cs) (a.simulateFrom s n (c :: cs)) := by
  unfold simulateFrom
  by_cases hc : c ∈ symbols
  · rw [hstep hc]
    refine ⟨h.1.trans ?_, h.2.trans ?_⟩
    · exact (List.find?_cons_of_neg (by simpa using hc)).symm
    · rw [List.forall_mem_cons]
      exact ⟨fun hcs => ⟨hc, hcs⟩, fun hcs => hcs.2⟩
  · have hout : c ∉ a.alphabet := fun hin => hc (hmem.mp hin)
    have hnone : a.step? s c = none := if_neg hout
    rw [hnone]
    refine ⟨?_, ?_⟩
    · rw [List.find?_cons_of_pos (by simpa using hc)]
      show (some (a.blocked s c n)).bind Halt.symbol? = some c
      rw [blocked, if_neg hout]
      rfl
    · exact iff_of_false (fun hfalse => nomatch hfalse) fun h => hc (h c List.mem_cons_self)

theorem stopsOutside_loop {q : State} (hq : q.accepting = true)
    (hmem : ∀ c, c ∈ a.alphabet ↔ c ∈ symbols) (hstep : ∀ c ∈ symbols, a.step? q c = some q)
    (n : Nat) (cs : List Char) : StopsOutside symbols cs (a.simulateFrom q n cs) := by
  induction cs generalizing n with
  | nil =>
    rw [simulateFrom_nil, if_pos hq]
    exact ⟨rfl, iff_of_true rfl fun _ hc => nomatch hc⟩
  | cons c cs ih => exact stopsOutside_cons (hmem c) (hstep c) (ih (n + 1))

theorem stopsOutside_alphabet (h : (alphabetBlueprint symbols).build = .ok a) {word : String}
    (hword : word.toList ≠ []) : StopsOutside symbols word.toList (a.simulate word) := by
  obtain ⟨i, hwf, rfl⟩ := build_eq_ok_iff.mp h
  obtain ⟨rfl, _⟩ := wellFormed_alphabet_iff.mp hwf
  have hstep : ∀ id, id = "q0" ∨ id = "q1" → ∀ c ∈ symbols,
      ((alphabetBlueprint symbols).assemble "q0").step?
        ((alphabetBlueprint symbols).stateNamed id) c =
          some ((alphabetBlueprint symbols).stateNamed "q1") := fun id hid c hc =>
    hwf.step?_assemble_iff.mpr ⟨⟨id, c, "q1"⟩, mem_edges_alphabet.mpr ⟨hid, hc, rfl⟩, rfl, rfl, rfl⟩
  have hmem : ∀ c, c ∈ ((alphabetBlueprint symbols).assemble "q0").alphabet ↔ c ∈ symbols := by
    intro c
    show c ∈ (alphabetBlueprint symbols).alphabet ↔ _
    rw [alphabetBlueprint_eq]
    exact Ascending.mem_ofList
  have haccepting : ((alphabetBlueprint symbols).stateNamed "q1").accepting = true := by
    rw [alphabetBlueprint_eq]
    rfl
  unfold simulate
  rw [start_assemble hwf.initial_mem]
  cases hcs : word.toList with
  | nil => exact absurd hcs hword
  | cons c cs =>
    exact stopsOutside_cons (hmem c) (hstep "q0" (.inl rfl) c)
      (stopsOutside_loop haccepting hmem (hstep "q1" (.inr rfl)) 1 cs)

end

/-! ## the classifier -/

/-- the library takes every pattern of the rules -/
def Vocabulary.PatternsCompile (regexes : Regexes) (v : Vocabulary) : Prop :=
  ∀ r ∈ v.rules, ∀ p, r.pattern = some p → regexes.Accepts (Regexes.wholeWord p)

section

variable {regexes : Regexes}

theorem exists_prepareAll {rs : List CategoryRule}
    (h : ∀ r ∈ rs, ∀ p, r.pattern = some p → regexes.Accepts (Regexes.wholeWord p)) :
    ∃ ws, prepareAll regexes rs = .ok ws := by
  induction rs with
  | nil => exact ⟨[], rfl⟩
  | cons r rs ih =>
    obtain ⟨hr, hrs⟩ := List.forall_mem_cons.mp h
    obtain ⟨ws, hws⟩ := ih hrs
    have hone : ∃ w, r.prepare regexes = .ok w := by
      unfold CategoryRule.prepare
      cases hp : r.pattern with
      | none => exact ⟨_, rfl⟩
      | some p =>
        obtain ⟨test, htest⟩ := hr p hp
        dsimp only
        rw [htest]
        exact ⟨_, rfl⟩
    obtain ⟨w, hw⟩ := hone
    refine ⟨w :: ws, ?_⟩
    rw [prepareAll, hw]
    dsimp only
    rw [hws]
    rfl

theorem alphabet_of_classifier {v : Vocabulary} {c : Classifier}
    (h : v.classifier regexes = .ok c) :
    (alphabetBlueprint v.symbols).build = .ok c.alphabet := by
  unfold Vocabulary.classifier at h
  split at h
  · cases h
  · rename_i a ha
    cases hrules : prepareAll regexes v.rules with
    | error f =>
      rw [hrules] at h
      cases h
    | ok rules =>
      rw [hrules] at h
      cases h
      exact ha

theorem exists_classifier_iff {v : Vocabulary} (hp : v.PatternsCompile regexes) :
    (∃ c, v.classifier regexes = .ok c) ↔ v.symbols.Nodup := by
  constructor
  · rintro ⟨c, hc⟩
    obtain ⟨i, hwf, _⟩ := build_eq_ok_iff.mp (alphabet_of_classifier hc)
    exact (wellFormed_alphabet_iff.mp hwf).2
  · intro hnodup
    obtain ⟨rules, hrules⟩ := exists_prepareAll hp
    have hbuild := build_eq_ok_iff.mpr ⟨"q0", wellFormed_alphabet_iff.mpr ⟨rfl, hnodup⟩, rfl⟩
    refine ⟨⟨rules, (alphabetBlueprint v.symbols).assemble "q0",
      v.defaultCategory, v.numberCategory, v.punctuationCategory⟩, ?_⟩
    rw [Vocabulary.classifier, hbuild]
    dsimp only
    rw [hrules]
    rfl

end

end SpanishSyntax.Lexicon
