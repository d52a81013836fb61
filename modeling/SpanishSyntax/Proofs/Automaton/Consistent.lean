import Mathlib.Data.Char
import SpanishSyntax.Proofs.Automaton.Clauses

/-!
# Built automata are consistent

`Automaton.Consistent` is what every later run relies on: the tables ascend, so that a state has one
entry and a symbol one transition, transitions lead to states on symbols of the alphabet, and the
initial state exists.  Then a lookup is a membership, and a step cannot fail because its target is
missing (`Consistent.step?_eq_some_iff`, `Consistent.step?_eq_none_iff`).

`Clause.Describes` ties an automaton to the clauses it was built from.  Clauses describe one
consistent automaton at most (`Describes.unique`), so their order does not matter
(`build_ofClauses`).
-/

namespace SpanishSyntax.Automaton

open Blueprint

structure Consistent (a : Automaton) : Prop where
  alphabet_ascends : Ascending.Ascends a.alphabet
  states_ascend : Ascending.Ascends (a.states.map (·.id))
  symbols_ascend : ∀ s ∈ a.states, Ascending.Ascends (s.transitions.map (·.1))
  symbol_mem : ∀ s ∈ a.states, ∀ c q, (c, q) ∈ s.transitions → c ∈ a.alphabet
  target_mem : ∀ s ∈ a.states, ∀ c q, (c, q) ∈ s.transitions → ∃ t ∈ a.states, t.id = q
  initial_mem : ∃ s ∈ a.states, s.id = a.initial

namespace Consistent

variable {a : Automaton} {s t : State} {c : Char}

theorem state?_eq_some_iff (h : a.Consistent) {id : String} :
    a.state? id = some s ↔ s ∈ a.states ∧ s.id = id :=
  Ascending.find?_key_iff h.states_ascend

theorem next?_eq_some_iff (h : a.Consistent) (hs : s ∈ a.states) {q : String} :
    s.next? c = some q ↔ (c, q) ∈ s.transitions := by
  rw [State.next?, Option.map_eq_some_iff]
  constructor
  · rintro ⟨⟨d, p⟩, hfind, rfl⟩
    obtain ⟨hmem, rfl⟩ := (Ascending.find?_key_iff (h.symbols_ascend s hs)).mp hfind
    exact hmem
  · intro hmem
    exact ⟨(c, q), (Ascending.find?_key_iff (h.symbols_ascend s hs)).mpr ⟨hmem, rfl⟩, rfl⟩

/-- runs begin in the initial state itself, not in a stand-in for it -/
theorem state?_initial (h : a.Consistent) : a.state? a.initial = some a.start := by
  obtain ⟨s, hs, hid⟩ := h.initial_mem
  have hfind := h.state?_eq_some_iff.mpr ⟨hs, hid⟩
  rw [start, hfind]
  rfl

theorem start_mem (h : a.Consistent) : a.start ∈ a.states :=
  (h.state?_eq_some_iff.mp h.state?_initial).1

theorem step?_eq_some_iff (h : a.Consistent) (hs : s ∈ a.states) :
    a.step? s c = some t ↔ (c, t.id) ∈ s.transitions ∧ t ∈ a.states := by
  unfold step?
  constructor
  · intro hstep
    split at hstep
    · obtain ⟨q, hq, ht⟩ := Option.bind_eq_some_iff.mp hstep
      obtain ⟨htmem, rfl⟩ := h.state?_eq_some_iff.mp ht
      exact ⟨(h.next?_eq_some_iff hs).mp hq, htmem⟩
    · cases hstep
  · rintro ⟨hedge, ht⟩
    rw [if_pos (h.symbol_mem s hs c t.id hedge), (h.next?_eq_some_iff hs).mpr hedge]
    exact h.state?_eq_some_iff.mpr ⟨ht, rfl⟩

/-- a state has one transition on a symbol, and an identifier one state -/
theorem target_unique (h : a.Consistent) (hs : s ∈ a.states) {u : State}
    (ht : (c, t.id) ∈ s.transitions ∧ t ∈ a.states)
    (hu : (c, u.id) ∈ s.transitions ∧ u ∈ a.states) : t = u := by
  have hsame := (h.step?_eq_some_iff hs).mpr ht
  rw [(h.step?_eq_some_iff hs).mpr hu] at hsame
  exact (Option.some.inj hsame).symm

/-- a step fails only where the state has no transition -/
theorem step?_eq_none_iff (h : a.Consistent) (hs : s ∈ a.states) :
    a.step? s c = none ↔ s.next? c = none := by
  constructor
  · intro hstep
    cases hnext : s.next? c with
    | none => rfl
    | some q =>
      have hedge := (h.next?_eq_some_iff hs).mp hnext
      obtain ⟨t, ht, rfl⟩ := h.target_mem s hs c q hedge
      rw [(h.step?_eq_some_iff hs).mpr ⟨hedge, ht⟩] at hstep
      cases hstep
  · intro hnext
    unfold step?
    rw [hnext]
    exact ite_self _

end Consistent

/-! ## the automaton of a blueprint -/

namespace Blueprint

variable {b : Blueprint} {i : String}

theorem ids_assemble (b : Blueprint) (i : String) :
    (b.assemble i).states.map (·.id) = Ascending.ofList b.ids := by
  show ((Ascending.ofList b.ids).map b.stateNamed).map (·.id) = _
  rw [List.map_map]
  exact List.map_id _

theorem mem_states_assemble {s : State} :
    s ∈ (b.assemble i).states ↔ ∃ id ∈ b.ids, s = b.stateNamed id := by
  show s ∈ (Ascending.ofList b.ids).map b.stateNamed ↔ _
  rw [List.mem_map]
  refine exists_congr fun id => and_congr Ascending.mem_ofList ?_
  exact eq_comm

theorem ascends_symbols_stateNamed (h : Ascending.Ascends b.alphabet) (id : String) :
    Ascending.Ascends ((b.stateNamed id).transitions.map (·.1)) := by
  show Ascending.Ascends ((b.alphabet.filterMap _).map _)
  rw [List.map_filterMap, Ascending.Ascends, List.pairwise_filterMap]
  refine List.Pairwise.imp (fun {c d} hcd x hx y hy => ?_) h
  rw [Option.map_map] at hx hy
  obtain ⟨_, _, rfl⟩ := Option.map_eq_some_iff.mp hx
  obtain ⟨_, _, rfl⟩ := Option.map_eq_some_iff.mp hy
  exact hcd

namespace WellFormed

theorem mem_transitions_iff (hwf : b.WellFormed i) {id q : String} {c : Char} :
    (c, q) ∈ (b.stateNamed id).transitions ↔ ⟨id, c, q⟩ ∈ b.edges := by
  show (c, q) ∈ b.alphabet.filterMap _ ↔ _
  rw [List.mem_filterMap]
  constructor
  · rintro ⟨d, _, hd⟩
    obtain ⟨e, hfind, hpair⟩ := Option.map_eq_some_iff.mp hd
    cases hpair
    obtain ⟨rfl, rfl⟩ : e.source = id ∧ e.symbol = c := by simpa using List.find?_some hfind
    exact List.mem_of_find?_eq_some hfind
  · intro he
    refine ⟨c, (hwf.declares _ he).2.1, ?_⟩
    rw [hwf.find?_edges he]
    rfl

theorem accepting_stateNamed_iff (hwf : b.WellFormed i) {id : String} {accepting : Bool}
    (hid : id ∈ b.ids) : (b.stateNamed id).accepting = accepting ↔ (id, accepting) ∈ b.states := by
  have hone : ∀ x y, (id, x) ∈ b.states → (id, y) ∈ b.states → x = y := fun x y hx hy =>
    congrArg Prod.snd (List.inj_on_of_nodup_map hwf.ids_nodup hx hy rfl)
  have htrue : (b.stateNamed id).accepting = true ↔ (id, true) ∈ b.states := by
    show (b.states.any _) = true ↔ _
    rw [List.any_eq_true]
    constructor
    · rintro ⟨⟨_, _⟩, hmem, h⟩
      obtain ⟨rfl, rfl⟩ := of_decide_eq_true h
      exact hmem
    · exact fun hmem => ⟨_, hmem, decide_eq_true ⟨rfl, rfl⟩⟩
  have hmem : (id, (b.stateNamed id).accepting) ∈ b.states := by
    obtain ⟨⟨id', x⟩, hx, hid'⟩ := List.mem_map.mp hid
    obtain rfl : id' = id := hid'
    cases h : (b.stateNamed id').accepting with
    | true => exact htrue.mp h
    | false =>
      cases x with
      | false => exact hx
      | true => exact absurd (htrue.mpr hx) (Bool.eq_false_iff.mp h)
  exact ⟨fun h => h ▸ hmem, fun h => hone _ _ hmem h⟩

theorem consistent_assemble (hwf : b.WellFormed i) (h : Ascending.Ascends b.alphabet) :
    (b.assemble i).Consistent where
  alphabet_ascends := h
  states_ascend := by
    rw [ids_assemble]
    exact Ascending.ascends_ofList b.ids
  symbols_ascend s hs := by
    obtain ⟨id, _, rfl⟩ := mem_states_assemble.mp hs
    exact ascends_symbols_stateNamed h id
  symbol_mem s hs c q hedge := by
    obtain ⟨id, _, rfl⟩ := mem_states_assemble.mp hs
    exact (hwf.declares _ (hwf.mem_transitions_iff.mp hedge)).2.1
  target_mem s hs c q hedge := by
    obtain ⟨id, _, rfl⟩ := mem_states_assemble.mp hs
    have htarget := (hwf.declares _ (hwf.mem_transitions_iff.mp hedge)).2.2
    exact ⟨b.stateNamed q, mem_states_assemble.mpr ⟨q, htarget, rfl⟩, rfl⟩
  initial_mem := ⟨b.stateNamed i, mem_states_assemble.mpr ⟨i, hwf.initial_mem, rfl⟩, rfl⟩

end WellFormed

theorem consistent_of_build {name : String} {cs : List Clause} {a : Automaton}
    (h : (ofClauses name cs).build = .ok a) : a.Consistent := by
  obtain ⟨i, hwf, rfl⟩ := build_eq_ok_iff.mp h
  exact hwf.consistent_assemble (ascends_alphabet_ofClauses name cs)

end Blueprint

/-! ## clauses and automata -/

namespace Clause

/-- the automaton holds what the clauses say and nothing else -/
structure Describes (name : String) (cs : List Clause) (a : Automaton) : Prop where
  name_eq : a.name = name
  description_eq : a.description = lastDescription cs
  mem_alphabet : ∀ c, c ∈ a.alphabet ↔ Adds cs c
  initial_eq : lastInitial? cs = some a.initial
  state_iff : ∀ id accepting, .state id accepting ∈ cs ↔
    ∃ s ∈ a.states, s.id = id ∧ s.accepting = accepting
  edge_iff : ∀ source c target, .edge ⟨source, c, target⟩ ∈ cs ↔
    ∃ s ∈ a.states, s.id = source ∧ (c, target) ∈ s.transitions

variable {name : String} {cs ds : List Clause} {a b : Automaton}

theorem describes_assemble {i : String} (hwf : (ofClauses name cs).WellFormed i) :
    Describes name cs ((ofClauses name cs).assemble i) where
  name_eq := name_ofClauses name cs
  description_eq := description_ofClauses name cs
  mem_alphabet _ := mem_alphabet_ofClauses name cs
  initial_eq := by
    rw [← initial_ofClauses name]
    exact hwf.initial
  state_iff id accepting := by
    have hstates : .state id accepting ∈ cs ↔ (id, accepting) ∈ (ofClauses name cs).states := by
      rw [states_ofClauses, mem_filterMap_state?]
    rw [hstates]
    constructor
    · intro hmem
      have hid : id ∈ (ofClauses name cs).ids := List.mem_map.mpr ⟨_, hmem, rfl⟩
      exact ⟨_, mem_states_assemble.mpr ⟨id, hid, rfl⟩, rfl,
        (hwf.accepting_stateNamed_iff hid).mpr hmem⟩
    · rintro ⟨s, hs, rfl, hacc⟩
      obtain ⟨id, hid, rfl⟩ := mem_states_assemble.mp hs
      exact (hwf.accepting_stateNamed_iff hid).mp hacc
  edge_iff source c target := by
    have hedges : .edge ⟨source, c, target⟩ ∈ cs ↔
        ⟨source, c, target⟩ ∈ (ofClauses name cs).edges := by
      rw [edges_ofClauses, mem_edges]
    rw [hedges]
    constructor
    · intro he
      exact ⟨_, mem_states_assemble.mpr ⟨source, (hwf.declares _ he).1, rfl⟩, rfl,
        hwf.mem_transitions_iff.mpr he⟩
    · rintro ⟨s, hs, rfl, hedge⟩
      obtain ⟨id, _, rfl⟩ := mem_states_assemble.mp hs
      exact hwf.mem_transitions_iff.mp hedge

theorem Describes.of_reordered (h : Reordered cs ds) (ha : Describes name ds a) :
    Describes name cs a where
  name_eq := ha.name_eq
  description_eq := by
    rw [ha.description_eq, lastDescription, lastDescription, h.descriptions_eq]
  mem_alphabet c := (ha.mem_alphabet c).trans ⟨Adds.of_perm h.perm.symm, Adds.of_perm h.perm⟩
  initial_eq := by
    rw [← ha.initial_eq, lastInitial?, lastInitial?, h.initials_eq]
  state_iff id accepting := h.perm.mem_iff.trans (ha.state_iff id accepting)
  edge_iff source c target := h.perm.mem_iff.trans (ha.edge_iff source c target)

/-- the states of one are states of the other -/
theorem Describes.states_subset (hca : a.Consistent) (hcb : b.Consistent)
    (ha : Describes name cs a) (hb : Describes name cs b) : a.states ⊆ b.states := by
  intro s hs
  obtain ⟨t, ht, hid, hacc⟩ := (hb.state_iff s.id s.accepting).mp
    ((ha.state_iff s.id s.accepting).mpr ⟨s, hs, rfl, rfl⟩)
  have htransitions : s.transitions = t.transitions := by
    refine Ascending.eq_of_keys (hca.symbols_ascend s hs) (hcb.symbols_ascend t ht) ?_
    rintro ⟨c, q⟩
    constructor
    · intro hedge
      obtain ⟨u, hu, huid, hedge⟩ := (hb.edge_iff s.id c q).mp
        ((ha.edge_iff s.id c q).mpr ⟨s, hs, rfl, hedge⟩)
      rwa [List.inj_on_of_nodup_map (Ascending.nodup_of_ascends hcb.states_ascend) ht hu
        (hid.trans huid.symm)]
    · intro hedge
      obtain ⟨u, hu, huid, hedge⟩ := (ha.edge_iff t.id c q).mp
        ((hb.edge_iff t.id c q).mpr ⟨t, ht, rfl, hedge⟩)
      rwa [List.inj_on_of_nodup_map (Ascending.nodup_of_ascends hca.states_ascend) hs hu
        (hid.symm.trans huid.symm)]
  have hst : s = t := by
    obtain ⟨id, accepting, transitions⟩ := s
    obtain ⟨id', accepting', transitions'⟩ := t
    dsimp only at hid hacc htransitions
    rw [hid, hacc, htransitions]
  exact hst ▸ ht

/-- clauses describe one automaton at most -/
theorem Describes.unique (hca : a.Consistent) (hcb : b.Consistent) (ha : Describes name cs a)
    (hb : Describes name cs b) : a = b := by
  have halphabet : a.alphabet = b.alphabet :=
    List.Pairwise.eq_of_mem_iff hca.alphabet_ascends hcb.alphabet_ascends fun c =>
      (ha.mem_alphabet c).trans (hb.mem_alphabet c).symm
  have hstates : a.states = b.states :=
    Ascending.eq_of_keys hca.states_ascend hcb.states_ascend fun s =>
      ⟨fun hs => states_subset hca hcb ha hb hs, fun hs => states_subset hcb hca hb ha hs⟩
  have hinitial : a.initial = b.initial :=
    Option.some.inj (ha.initial_eq.symm.trans hb.initial_eq)
  calc a = ⟨a.name, a.description, a.alphabet, a.states, a.initial⟩ := rfl
    _ = b := by
      rw [ha.name_eq, ha.description_eq, halphabet, hstates, hinitial, ← hb.name_eq,
        ← hb.description_eq]

theorem exists_build_iff : (∃ a, (ofClauses name cs).build = .ok a) ↔ WellFormed cs := by
  rw [← wellFormed_ofClauses_iff name]
  constructor
  · rintro ⟨a, ha⟩
    obtain ⟨i, hwf, _⟩ := build_eq_ok_iff.mp ha
    exact ⟨i, hwf⟩
  · rintro ⟨i, hwf⟩
    exact ⟨_, build_eq_ok_iff.mpr ⟨i, hwf, rfl⟩⟩

theorem describes_of_build (h : (ofClauses name cs).build = .ok a) : Describes name cs a := by
  obtain ⟨i, hwf, rfl⟩ := build_eq_ok_iff.mp h
  exact describes_assemble hwf

theorem build_of_reordered (h : Reordered cs ds) (ha : (ofClauses name cs).build = .ok a) :
    (ofClauses name ds).build = .ok a := by
  obtain ⟨b, hb⟩ := exists_build_iff.mpr ((exists_build_iff.mp ⟨a, ha⟩).of_reordered h)
  have hab : a = b := Describes.unique (consistent_of_build ha) (consistent_of_build hb)
    (describes_of_build ha) ((describes_of_build hb).of_reordered h)
  rw [hb, hab]

/-- **Clauses are built into an automaton exactly if they are well formed.**  It is consistent, so
that runs begin in its initial state and a step fails only where the state has no transition; it
holds what the clauses say and nothing else; and it does not hang on the order in which states,
symbols and edges were given. -/
theorem build_ofClauses (name : String) (cs : List Clause) :
    ((∃ a, (ofClauses name cs).build = .ok a) ↔ WellFormed cs) ∧
      ∀ a, (ofClauses name cs).build = .ok a →
        a.Consistent ∧ Describes name cs a ∧ a.state? a.initial = some a.start ∧
          (∀ s ∈ a.states, ∀ c, a.step? s c = none ↔ s.next? c = none) ∧
          ∀ ds, Reordered cs ds → (ofClauses name ds).build = .ok a := by
  refine ⟨exists_build_iff, fun a ha => ?_⟩
  have hconsistent := consistent_of_build ha
  exact ⟨hconsistent, describes_of_build ha, hconsistent.state?_initial,
    fun s hs c => hconsistent.step?_eq_none_iff hs, fun ds h => build_of_reordered h ha⟩

/-- edges before the states they need, symbols in two clauses and an initial state that is
replaced -/
def scatteredClauses : List Clause :=
  [.edge ⟨"q1", 'a', "q0"⟩, .initial "q9", .symbols ['b'], .state "q1" true,
    .edge ⟨"q0", 'b', "q1"⟩, .initial "q0", .symbols ['a', 'b'], .state "q0" false]

def gatheredClauses : List Clause :=
  [.symbols ['a', 'b'], .symbols ['b'], .state "q0" false, .state "q1" true, .initial "q9",
    .initial "q0", .edge ⟨"q0", 'b', "q1"⟩, .edge ⟨"q1", 'a', "q0"⟩]

def alternating : Automaton :=
  ⟨"alternating", "", ['a', 'b'], [⟨"q0", false, [('b', "q1")]⟩, ⟨"q1", true, [('a', "q0")]⟩], "q0"⟩

theorem build_scatteredClauses :
    (ofClauses "alternating" scatteredClauses).build = .ok alternating ∧
      Reordered scatteredClauses gatheredClauses ∧
      WellFormed scatteredClauses ∧ alternating.Consistent ∧
      Describes "alternating" scatteredClauses alternating ∧
      (ofClauses "alternating" gatheredClauses).build = .ok alternating := by
  have hbuild : (ofClauses "alternating" scatteredClauses).build = .ok alternating := by decide
  have horder : Reordered scatteredClauses gatheredClauses := ⟨by decide, by decide, by decide⟩
  obtain ⟨hiff, hbuilt⟩ := build_ofClauses "alternating" scatteredClauses
  obtain ⟨hconsistent, hdescribes, _, _, hsame⟩ := hbuilt alternating hbuild
  exact ⟨hbuild, horder, hiff.mp ⟨alternating, hbuild⟩, hconsistent, hdescribes,
    hsame gatheredClauses horder⟩

end Clause

end SpanishSyntax.Automaton
