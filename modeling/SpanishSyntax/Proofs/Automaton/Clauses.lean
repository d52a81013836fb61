import Mathlib.Data.List.Induction
import Mathlib.Data.String.Basic
import SpanishSyntax.Proofs.Ascending
import SpanishSyntax.Proofs.Automaton.Blueprint

/-!
# What a blueprint keeps of its clauses

A blueprint takes its clauses one by one.  It keeps the states and the edges in the order of their
clauses, the last description, the last initial state, and of the symbols the set.

* `states_ofClauses`, `edges_ofClauses`, `initial_ofClauses`, `description_ofClauses`,
  `mem_alphabet_ofClauses`, `ascends_alphabet_ofClauses`   what it keeps, field by field;
* `wellFormed_ofClauses_iff`   the conditions on a blueprint, as conditions on the clauses;
* `Clause.Reordered`           clauses in another order, with the descriptions and the initial
                               states among themselves in the same one.
-/

namespace SpanishSyntax.Automaton

open Blueprint

namespace Clause

def state? : Clause → Option (String × Bool)
  | .state id accepting => some (id, accepting)
  | _ => none

def edge? : Clause → Option Edge
  | .edge e => some e
  | _ => none

def initial? : Clause → Option String
  | .initial id => some id
  | _ => none

def description? : Clause → Option String
  | .description text => some text
  | _ => none

/-- the declared identifiers as they come -/
def ids (cs : List Clause) : List String := (cs.filterMap state?).map (·.1)

/-- the edges as they come -/
def edges (cs : List Clause) : List Edge := cs.filterMap edge?

/-- the initial state given last -/
def lastInitial? (cs : List Clause) : Option String := (cs.filterMap initial?).getLast?

/-- the description given last, or none at all -/
def lastDescription (cs : List Clause) : String := ((cs.filterMap description?).getLast?).getD ""

/-- some clause adds `c` to the alphabet -/
def Adds (cs : List Clause) (c : Char) : Prop := ∃ symbols, .symbols symbols ∈ cs ∧ c ∈ symbols

theorem mem_edges {cs : List Clause} {e : Edge} : e ∈ edges cs ↔ .edge e ∈ cs := by
  rw [edges, List.mem_filterMap]
  constructor
  · rintro ⟨c, hc, h⟩
    cases c <;> cases h
    exact hc
  · exact fun h => ⟨_, h, rfl⟩

theorem mem_filterMap_state? {cs : List Clause} {id : String} {accepting : Bool} :
    (id, accepting) ∈ cs.filterMap state? ↔ .state id accepting ∈ cs := by
  rw [List.mem_filterMap]
  constructor
  · rintro ⟨c, hc, h⟩
    cases c <;> cases h
    exact hc
  · exact fun h => ⟨_, h, rfl⟩

theorem edges_append (cs ds : List Clause) : edges (cs ++ ds) = edges cs ++ edges ds :=
  List.filterMap_append

/-- the conditions on clauses under which they describe an automaton -/
structure WellFormed (cs : List Clause) : Prop where
  ids_nodup : (ids cs).Nodup
  initial_mem : ∃ i ∈ ids cs, lastInitial? cs = some i
  source_mem : ∀ e, .edge e ∈ cs → e.source ∈ ids cs
  target_mem : ∀ e, .edge e ∈ cs → e.target ∈ ids cs
  symbol_mem : ∀ e, .edge e ∈ cs → Adds cs e.symbol
  /-- no two edges, be they the same, leave a state on one symbol -/
  deterministic : (edges cs).Pairwise Apart

/-- the same clauses; only states, symbols and edges may have changed places, with one another and
with the rest -/
structure Reordered (cs ds : List Clause) : Prop where
  perm : cs.Perm ds
  initials_eq : ds.filterMap initial? = cs.filterMap initial?
  descriptions_eq : ds.filterMap description? = cs.filterMap description?

theorem Adds.of_perm {cs ds : List Clause} (h : cs.Perm ds) {c : Char} (hc : Adds cs c) :
    Adds ds c := by
  obtain ⟨symbols, hmem, hsymbol⟩ := hc
  exact ⟨symbols, h.subset hmem, hsymbol⟩

theorem WellFormed.of_reordered {cs ds : List Clause} (h : Reordered cs ds) (hcs : WellFormed cs) :
    WellFormed ds := by
  have hids : (ids cs).Perm (ids ds) := (h.perm.filterMap state?).map _
  obtain ⟨i, hi, hinitial⟩ := hcs.initial_mem
  refine ⟨hids.nodup_iff.mp hcs.ids_nodup, ⟨i, hids.subset hi, ?_⟩, fun e he => ?_,
    fun e he => ?_, fun e he => ?_, ?_⟩
  · rw [lastInitial?, h.initials_eq]
    exact hinitial
  · exact hids.subset (hcs.source_mem e (h.perm.symm.subset he))
  · exact hids.subset (hcs.target_mem e (h.perm.symm.subset he))
  · exact (hcs.symbol_mem e (h.perm.symm.subset he)).of_perm h.perm
  · have hsymm : ∀ {e f : Edge}, Apart e f → Apart f e := fun hef hfe =>
      hef ⟨hfe.1.symm, hfe.2.symm⟩
    exact (List.Perm.pairwise_iff hsymm (h.perm.filterMap edge?)).mp hcs.deterministic

end Clause

namespace Blueprint

variable (name : String) (cs : List Clause)

theorem ofClauses_concat (c : Clause) : ofClauses name (cs ++ [c]) = (ofClauses name cs).add c := by
  unfold ofClauses
  rw [List.foldl_append]
  rfl

theorem name_ofClauses : (ofClauses name cs).name = name := by
  induction cs using List.reverseRecOn with
  | nil => rfl
  | append_singleton cs c ih =>
    rw [ofClauses_concat]
    cases c <;> exact ih

theorem description_ofClauses : (ofClauses name cs).description = Clause.lastDescription cs := by
  induction cs using List.reverseRecOn with
  | nil => rfl
  | append_singleton cs c ih =>
    rw [ofClauses_concat, Clause.lastDescription, List.filterMap_append]
    cases c with
    | description text => exact (congrArg (·.getD "") List.getLast?_concat).symm
    | _ => exact ih.trans (congrArg (fun l => l.getLast?.getD "") (List.append_nil _).symm)

theorem states_ofClauses : (ofClauses name cs).states = cs.filterMap Clause.state? := by
  induction cs using List.reverseRecOn with
  | nil => rfl
  | append_singleton cs c ih =>
    rw [ofClauses_concat, List.filterMap_append, ← ih]
    cases c with
    | state id accepting => rfl
    | _ => exact (List.append_nil _).symm

theorem edges_ofClauses : (ofClauses name cs).edges = Clause.edges cs := by
  induction cs using List.reverseRecOn with
  | nil => rfl
  | append_singleton cs c ih =>
    rw [ofClauses_concat, Clause.edges_append, ← ih]
    cases c with
    | edge e => rfl
    | _ => exact (List.append_nil _).symm

theorem initial_ofClauses : (ofClauses name cs).initial = Clause.lastInitial? cs := by
  induction cs using List.reverseRecOn with
  | nil => rfl
  | append_singleton cs c ih =>
    rw [ofClauses_concat, Clause.lastInitial?, List.filterMap_append]
    cases c with
    | initial id => exact List.getLast?_concat.symm
    | _ => exact ih.trans (congrArg List.getLast? (List.append_nil _).symm)

theorem ids_ofClauses : (ofClauses name cs).ids = Clause.ids cs := by
  rw [ids, states_ofClauses]
  rfl

theorem mem_alphabet_ofClauses {c : Char} :
    c ∈ (ofClauses name cs).alphabet ↔ Clause.Adds cs c := by
  induction cs using List.reverseRecOn with
  | nil => exact iff_of_false (fun h => nomatch h) fun ⟨_, h, _⟩ => nomatch h
  | append_singleton cs d ih =>
    have hadds : Clause.Adds (cs ++ [d]) c ↔ Clause.Adds cs c ∨ Clause.Adds [d] c := by
      simp only [Clause.Adds, List.mem_append, or_and_right, exists_or]
    rw [ofClauses_concat, hadds, ← ih]
    cases d with
    | symbols symbols =>
      have hone : Clause.Adds [.symbols symbols] c ↔ c ∈ symbols := by
        simp [Clause.Adds]
      rw [hone]
      exact Ascending.mem_union
    | _ => simp [Clause.Adds, add]

theorem ascends_alphabet_ofClauses : Ascending.Ascends (ofClauses name cs).alphabet := by
  induction cs using List.reverseRecOn with
  | nil => exact Ascending.ascends_nil
  | append_singleton cs c ih =>
    rw [ofClauses_concat]
    cases c with
    | symbols symbols => exact Ascending.ascends_union ih
    | _ => exact ih

theorem wellFormed_ofClauses_iff :
    (∃ i, (ofClauses name cs).WellFormed i) ↔ Clause.WellFormed cs := by
  have hedge : ∀ e, e ∈ (ofClauses name cs).edges ↔ .edge e ∈ cs := fun e => by
    rw [edges_ofClauses, Clause.mem_edges]
  constructor
  · rintro ⟨i, h⟩
    refine ⟨?_, ⟨i, ?_, ?_⟩, fun e he => ?_, fun e he => ?_, fun e he => ?_, ?_⟩
    · rw [← ids_ofClauses name]
      exact h.ids_nodup
    · rw [← ids_ofClauses name]
      exact h.initial_mem
    · rw [← initial_ofClauses name]
      exact h.initial
    · rw [← ids_ofClauses name]
      exact (h.declares e ((hedge e).mpr he)).1
    · rw [← ids_ofClauses name]
      exact (h.declares e ((hedge e).mpr he)).2.2
    · exact (mem_alphabet_ofClauses name cs).mp (h.declares e ((hedge e).mpr he)).2.1
    · rw [← edges_ofClauses name]
      exact h.deterministic
  · intro h
    obtain ⟨i, hi, hinitial⟩ := h.initial_mem
    refine ⟨i, ?_, ?_, ?_, fun e he => ?_, ?_⟩
    · rw [ids_ofClauses]
      exact h.ids_nodup
    · rw [initial_ofClauses]
      exact hinitial
    · rw [ids_ofClauses]
      exact hi
    · have he := (hedge e).mp he
      rw [Declares, ids_ofClauses]
      exact ⟨h.source_mem e he, (mem_alphabet_ofClauses name cs).mpr (h.symbol_mem e he),
        h.target_mem e he⟩
    · rw [edges_ofClauses]
      exact h.deterministic

end Blueprint

end SpanishSyntax.Automaton
