import Mathlib.Data.List.Nodup
import Mathlib.Data.List.Pairwise
import SpanishSyntax.Automaton.Blueprint

/-!
# Which blueprints describe an automaton

`Blueprint.WellFormed b i` lists what `Blueprint.build` checks, without the order in which it is
checked: the identifiers are distinct, `i` is the initial state, edges run between declared states
on symbols of the alphabet, and no two edges leave a state on one symbol.  The build succeeds
exactly for such blueprints (`Blueprint.build_eq_ok_iff`), and the transition function of what it
gives is the relation of the edges (`Blueprint.WellFormed.step?_assemble_iff`).
-/

namespace SpanishSyntax.Automaton.Blueprint

/-- the edges may stand side by side in a deterministic automaton -/
def Apart (e f : Edge) : Prop := ¬ (e.source = f.source ∧ e.symbol = f.symbol)

/-- both ends are states and the symbol is one of the alphabet -/
def Declares (b : Blueprint) (e : Edge) : Prop :=
  e.source ∈ b.ids ∧ e.symbol ∈ b.alphabet ∧ e.target ∈ b.ids

structure WellFormed (b : Blueprint) (i : String) : Prop where
  ids_nodup : b.ids.Nodup
  initial : b.initial = some i
  initial_mem : i ∈ b.ids
  declares : ∀ e ∈ b.edges, b.Declares e
  deterministic : b.edges.Pairwise Apart

/-! ## the checks -/

theorem firstRepeat_eq_none_iff {seen ns : List String} :
    firstRepeat seen ns = none ↔ ns.Nodup ∧ ∀ n ∈ ns, n ∉ seen := by
  induction ns generalizing seen with
  | nil => simp [firstRepeat]
  | cons n ns ih =>
    unfold firstRepeat
    split
    · rename_i h
      simp [h]
    · rename_i h
      rw [ih, List.nodup_cons]
      constructor
      · rintro ⟨hnodup, hfresh⟩
        refine ⟨⟨fun hn => hfresh n hn List.mem_cons_self, hnodup⟩, ?_⟩
        exact List.forall_mem_cons.mpr ⟨h, fun m hm hs => hfresh m hm (List.mem_cons_of_mem _ hs)⟩
      · rintro ⟨⟨hn, hnodup⟩, hfresh⟩
        refine ⟨hnodup, fun m hm hs => ?_⟩
        rcases List.mem_cons.mp hs with rfl | hs
        · exact hn hm
        · exact hfresh m (List.mem_cons_of_mem _ hm) hs

theorem checkInitial_eq_ok_iff {b : Blueprint} {i : String} :
    b.checkInitial = .ok i ↔ b.initial = some i ∧ i ∈ b.ids := by
  unfold checkInitial
  split
  · rename_i h
    simp [h]
  · rename_i j h
    split
    · rename_i hj
      rw [h, Except.ok.injEq, Option.some.injEq]
      constructor
      · rintro rfl
        exact ⟨rfl, hj⟩
      · exact fun h => h.1
    · rename_i hj
      rw [h, Option.some.injEq]
      constructor
      · intro hfalse
        cases hfalse
      · rintro ⟨rfl, hmem⟩
        exact absurd hmem hj

theorem edgeDefect_eq_none_iff {b : Blueprint} {before : List Edge} {e : Edge} :
    b.edgeDefect before e = none ↔ b.Declares e ∧ ∀ f ∈ before, Apart f e := by
  have hbefore : before.any (fun f => f.source = e.source ∧ f.symbol = e.symbol) = false ↔
      ∀ f ∈ before, Apart f e := by
    simp [Apart]
  unfold edgeDefect
  by_cases htarget : e.target ∈ b.ids
  · by_cases hsymbol : e.symbol ∈ b.alphabet
    · by_cases hsource : e.source ∈ b.ids
      · rw [if_neg (not_not_intro htarget), if_neg (not_not_intro hsymbol),
          if_neg (not_not_intro hsource), ← hbefore]
        split
        · rename_i h
          exact iff_of_false (fun hfalse => nomatch hfalse) fun hfalse =>
            Bool.eq_false_iff.mp hfalse.2 h
        · rename_i h
          exact iff_of_true rfl ⟨⟨hsource, hsymbol, htarget⟩, Bool.eq_false_iff.mpr h⟩
      · rw [if_neg (not_not_intro htarget), if_neg (not_not_intro hsymbol), if_pos hsource]
        exact iff_of_false (fun hfalse => nomatch hfalse) fun h => hsource h.1.1
    · rw [if_neg (not_not_intro htarget), if_pos hsymbol]
      exact iff_of_false (fun hfalse => nomatch hfalse) fun h => hsymbol h.1.2.1
  · rw [if_pos htarget]
    exact iff_of_false (fun hfalse => nomatch hfalse) fun h => htarget h.1.2.2

theorem firstEdgeDefect_eq_none_iff {b : Blueprint} {before es : List Edge} :
    b.firstEdgeDefect before es = none ↔
      (∀ e ∈ es, b.Declares e) ∧ es.Pairwise Apart ∧ ∀ f ∈ before, ∀ e ∈ es, Apart f e := by
  induction es generalizing before with
  | nil => simp [firstEdgeDefect]
  | cons e es ih =>
    unfold firstEdgeDefect
    cases h : b.edgeDefect before e with
    | some d =>
      have hdefect : ¬ (b.Declares e ∧ ∀ f ∈ before, Apart f e) := by
        rw [← edgeDefect_eq_none_iff, h]
        simp
      constructor
      · intro hfalse
        cases hfalse
      · rintro ⟨hdeclares, _, hbefore⟩
        exact absurd ⟨hdeclares e List.mem_cons_self, fun f hf => hbefore f hf e List.mem_cons_self⟩
          hdefect
    | none =>
      obtain ⟨hdeclares, hbefore⟩ := edgeDefect_eq_none_iff.mp h
      dsimp only
      rw [ih, List.pairwise_cons, List.forall_mem_cons, List.forall_mem_cons]
      constructor
      · rintro ⟨hes, hpair, he, hrest⟩
        exact ⟨⟨hdeclares, hes⟩, ⟨he, hpair⟩, fun f hf =>
          List.forall_mem_cons.mpr ⟨hbefore f hf, hrest f hf⟩⟩
      · rintro ⟨⟨_, hes⟩, ⟨he, hpair⟩, hrest⟩
        exact ⟨hes, hpair, he, fun f hf => (List.forall_mem_cons.mp (hrest f hf)).2⟩

/-- **A blueprint describes an automaton exactly if it is well formed.** -/
theorem build_eq_ok_iff {b : Blueprint} {a : Automaton} :
    b.build = .ok a ↔ ∃ i, b.WellFormed i ∧ a = b.assemble i := by
  unfold build
  cases hids : firstRepeat [] b.ids with
  | some id =>
    have hrepeat : ¬ b.ids.Nodup := fun h => by
      have hnone : firstRepeat [] b.ids = none :=
        firstRepeat_eq_none_iff.mpr ⟨h, fun _ _ hn => nomatch hn⟩
      rw [hids] at hnone
      cases hnone
    constructor
    · intro h
      cases h
    · rintro ⟨i, hwf, _⟩
      exact absurd hwf.ids_nodup hrepeat
  | none =>
    have hnodup := (firstRepeat_eq_none_iff.mp hids).1
    cases hinitial : b.checkInitial with
    | error d =>
      constructor
      · intro h
        cases h
      · rintro ⟨i, hwf, _⟩
        rw [checkInitial_eq_ok_iff.mpr ⟨hwf.initial, hwf.initial_mem⟩] at hinitial
        cases hinitial
    | ok i =>
      obtain ⟨hi, hmem⟩ := checkInitial_eq_ok_iff.mp hinitial
      cases hedges : b.firstEdgeDefect [] b.edges with
      | some d =>
        constructor
        · intro h
          cases h
        · rintro ⟨j, hwf, _⟩
          have hnone : b.firstEdgeDefect [] b.edges = none := firstEdgeDefect_eq_none_iff.mpr
            ⟨hwf.declares, hwf.deterministic, fun _ hf => nomatch hf⟩
          rw [hedges] at hnone
          cases hnone
      | none =>
        obtain ⟨hdeclares, hpair, _⟩ := firstEdgeDefect_eq_none_iff.mp hedges
        constructor
        · intro h
          cases h
          exact ⟨i, ⟨hnodup, hi, hmem, hdeclares, hpair⟩, rfl⟩
        · rintro ⟨j, hwf, rfl⟩
          rw [Option.some.inj (hwf.initial.symm.trans hi)]
          rfl

/-! ## clauses -/

theorem foldl_fan (b : Blueprint) (source target : String) (symbols : List Char) :
    (fan source symbols target).foldl add b =
      { b with edges := b.edges ++ symbols.map fun c => ⟨source, c, target⟩ } := by
  induction symbols generalizing b with
  | nil => simp [fan]
  | cons c symbols ih =>
    show (fan source symbols target).foldl add (b.add (.edge ⟨source, c, target⟩)) = _
    rw [ih]
    simp [add]

theorem pairwise_apart_fan {source target : String} {symbols : List Char} :
    (symbols.map fun c => (⟨source, c, target⟩ : Edge)).Pairwise Apart ↔ symbols.Nodup := by
  rw [List.pairwise_map]
  simp [Apart, List.Nodup]

/-! ## the automaton -/

theorem find?_named {names : List String} {id : String} (h : id ∈ names) :
    names.find? (fun n => n = id) = some id := by
  cases hfind : names.find? fun n => n = id with
  | none =>
    have hne := List.find?_eq_none.mp hfind id h
    simp at hne
  | some n =>
    have hn := List.find?_some hfind
    rw [of_decide_eq_true hn]

theorem state?_assemble {b : Blueprint} {id : String} (h : id ∈ b.ids) (i : String) :
    (b.assemble i).state? id = some (b.stateNamed id) := by
  show ((Ascending.ofList b.ids).map b.stateNamed).find? _ = _
  rw [List.find?_map]
  show ((Ascending.ofList b.ids).find? fun n => n = id).map b.stateNamed = _
  rw [find?_named (Ascending.mem_ofList.mpr h)]
  rfl

theorem start_assemble {b : Blueprint} {i : String} (h : i ∈ b.ids) :
    (b.assemble i).start = b.stateNamed i := by
  rw [start]
  show ((b.assemble i).state? i).getD _ = _
  rw [state?_assemble h]
  rfl

/-- looking up a symbol in a table made symbol by symbol -/
theorem find?_row {α β : Type} (edge? : Char → Option β) (target : β → α) (c : Char)
    (cs : List Char) :
    (cs.filterMap fun d => (edge? d).map fun e => (d, target e)).find? (fun p => p.1 = c) =
      if c ∈ cs then (edge? c).map fun e => (c, target e) else none := by
  induction cs with
  | nil => rfl
  | cons d cs ih =>
    rw [List.filterMap_cons]
    by_cases hd : d = c
    · subst hd
      rw [if_pos List.mem_cons_self]
      cases he : edge? d with
      | none =>
        dsimp only [Option.map_none]
        rw [ih, he]
        exact ite_self _
      | some e => exact List.find?_cons_of_pos (decide_eq_true rfl)
    · have hmem : c ∈ d :: cs ↔ c ∈ cs := by
        rw [List.mem_cons, or_iff_right (Ne.symm hd)]
      simp only [hmem]
      cases he : edge? d with
      | none => exact ih
      | some e =>
        rw [← ih]
        exact List.find?_cons_of_neg (by simpa using hd)

theorem next?_stateNamed {b : Blueprint} {c : Char} (hc : c ∈ b.alphabet) (id : String) :
    (b.stateNamed id).next? c =
      (b.edges.find? fun e => e.source = id ∧ e.symbol = c).map (·.target) := by
  rw [State.next?, stateNamed]
  dsimp only
  rw [find?_row, if_pos hc, Option.map_map]
  rfl

namespace WellFormed

variable {b : Blueprint} {i : String}

theorem edge_eq (hwf : b.WellFormed i) {e f : Edge} (he : e ∈ b.edges) (hf : f ∈ b.edges)
    (hsource : e.source = f.source) (hsymbol : e.symbol = f.symbol) : e = f := by
  have : Std.Symm Apart := ⟨fun e f h hef => h ⟨hef.1.symm, hef.2.symm⟩⟩
  by_contra hne
  exact hwf.deterministic.forall he hf hne ⟨hsource, hsymbol⟩

theorem find?_edges (hwf : b.WellFormed i) {e : Edge} (he : e ∈ b.edges) :
    b.edges.find? (fun f => f.source = e.source ∧ f.symbol = e.symbol) = some e := by
  cases hfind : b.edges.find? fun f => f.source = e.source ∧ f.symbol = e.symbol with
  | none =>
    have hne := List.find?_eq_none.mp hfind e he
    simp at hne
  | some f =>
    obtain ⟨hsource, hsymbol⟩ : f.source = e.source ∧ f.symbol = e.symbol := by
      simpa using List.find?_some hfind
    rw [hwf.edge_eq (List.mem_of_find?_eq_some hfind) he hsource hsymbol]

/-- the transition function is the relation of the edges -/
theorem step?_assemble_iff (hwf : b.WellFormed i) {id : String} {c : Char} {s : State} :
    (b.assemble i).step? (b.stateNamed id) c = some s ↔
      ∃ e ∈ b.edges, e.source = id ∧ e.symbol = c ∧ s = b.stateNamed e.target := by
  have hstep : (b.assemble i).step? (b.stateNamed id) c =
      if c ∈ b.alphabet then ((b.stateNamed id).next? c).bind (b.assemble i).state? else none := rfl
  rw [hstep]
  constructor
  · intro h
    split at h
    · rename_i hc
      rw [next?_stateNamed hc] at h
      obtain ⟨target, htarget, hs⟩ := Option.bind_eq_some_iff.mp h
      obtain ⟨e, hfind, rfl⟩ := Option.map_eq_some_iff.mp htarget
      have he := List.mem_of_find?_eq_some hfind
      obtain ⟨hsource, hsymbol⟩ : e.source = id ∧ e.symbol = c := by
        simpa using List.find?_some hfind
      rw [state?_assemble (hwf.declares e he).2.2] at hs
      exact ⟨e, he, hsource, hsymbol, (Option.some.inj hs).symm⟩
    · cases h
  · rintro ⟨e, he, rfl, rfl, rfl⟩
    obtain ⟨_, hsymbol, htarget⟩ := hwf.declares e he
    rw [if_pos hsymbol, next?_stateNamed hsymbol, hwf.find?_edges he]
    exact state?_assemble htarget i

end WellFormed

end SpanishSyntax.Automaton.Blueprint
