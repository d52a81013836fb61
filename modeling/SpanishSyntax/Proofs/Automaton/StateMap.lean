import SpanishSyntax.Automaton.StateMap
import SpanishSyntax.Proofs.Automaton.Consistent
import SpanishSyntax.Proofs.Entries

/-!
# Building in place gives the same automaton

The checks that look into the map of states are the checks of `Blueprint.build`, because the map
knows the states declared so far (`Blueprint.Declared`) and then, of each of them, the edges
inserted so far (`Blueprint.Inserted`).  An edge replaces another one exactly if one with its
source and symbol came before.

* `Blueprint.declareStates_cases`       declaring the states;
* `Blueprint.insertEdges_cases`         inserting the edges;
* `Blueprint.buildInPlace_ofClauses`    so the same clauses are refused, for the same defect, and
                                        the others give the same automaton.
-/

namespace SpanishSyntax.Automaton.Blueprint

open Entries (Ordered)

variable {b : Blueprint}

/-! ## states -/

def Accepts (states : List (String × Bool)) (id : String) : Bool :=
  states.any fun s => s.1 = id ∧ s.2 = true

/-- the map knows the states that were declared, each without an edge -/
structure Declared (states : List (String × Bool)) (m : StateMap) : Prop where
  keys : m.keys = Ascending.ofList (states.map (·.1))
  get? : ∀ id ∈ states.map (·.1), m.get? id = some ⟨id, Accepts states id, []⟩

theorem isSome_get?_iff {m : StateMap} {ids : List String} (h : m.keys = Ascending.ofList ids)
    (id : String) : (m.get? id).isSome = true ↔ id ∈ ids := by
  rw [Option.isSome_iff_ne_none, ne_eq, Entries.get?_eq_none_iff, h, Ascending.mem_ofList,
    not_not]

theorem isNone_get?_iff {m : StateMap} {ids : List String} (h : m.keys = Ascending.ofList ids)
    (id : String) : (m.get? id).isNone = true ↔ id ∉ ids := by
  rw [Option.isNone_iff_eq_none, Entries.get?_eq_none_iff, h, Ascending.mem_ofList]

theorem Declared.ordered {states : List (String × Bool)} {m : StateMap} (h : Declared states m) :
    Ordered m := by
  rw [Ordered, h.keys]
  exact Ascending.ascends_ofList _

theorem declared_nil : Declared [] [] := ⟨rfl, fun _ h => nomatch h⟩

theorem Declared.concat {states : List (String × Bool)} {m : StateMap} (h : Declared states m)
    {id : String} (hnew : id ∉ states.map (·.1)) (accepting : Bool) :
    Declared (states ++ [(id, accepting)]) (m.put id fun _ => ⟨id, accepting, []⟩) where
  keys := by
    rw [Entries.keys_put, h.keys, List.map_append, Ascending.ofList, Ascending.ofList,
      Ascending.union, Ascending.union, List.foldl_append]
    rfl
  get? id' hid' := by
    rw [h.ordered.get?_put]
    by_cases heq : id' = id
    · subst heq
      have hold : ∀ s ∈ states, ¬ (s.1 = id' ∧ s.2 = true) := fun s hs hsid =>
        hnew (List.mem_map.mpr ⟨s, hs, hsid.1⟩)
      have hnone : states.any (fun s => s.1 = id' ∧ s.2 = true) = false := by
        rw [List.any_eq_false]
        exact fun s hs => by simpa using hold s hs
      rw [if_pos rfl, Accepts, List.any_append, hnone]
      simp
    · have hmem : id' ∈ states.map (·.1) := by
        rw [List.map_append, List.mem_append] at hid'
        exact hid'.resolve_right fun hlast => heq (List.mem_singleton.mp hlast)
      rw [if_neg heq, h.get? id' hmem, Accepts, Accepts, List.any_append]
      simp [Ne.symm heq]

theorem declareStates_cases (automaton : String) {states : List (String × Bool)} {m : StateMap}
    (h : Declared states m) {seen : List String}
    (hseen : ∀ id, id ∈ seen ↔ id ∈ states.map (·.1)) (rest : List (String × Bool)) :
    (∀ id, firstRepeat seen (rest.map (·.1)) = some id →
      declareStates automaton rest m = .error (.duplicateState automaton id)) ∧
    (firstRepeat seen (rest.map (·.1)) = none →
      ∃ m', declareStates automaton rest m = .ok m' ∧ Declared (states ++ rest) m') := by
  induction rest generalizing states m seen with
  | nil =>
    refine ⟨fun id hid => absurd hid.symm (Option.some_ne_none id), fun _ => ⟨m, rfl, ?_⟩⟩
    rwa [List.append_nil]
  | cons s rest ih =>
    obtain ⟨id, accepting⟩ := s
    have hknown := (isSome_get?_iff h.keys id).trans (hseen id).symm
    rw [List.map_cons, firstRepeat, declareStates]
    by_cases hid : id ∈ seen
    · rw [if_pos hid, if_pos (hknown.mpr hid)]
      refine ⟨fun id' hid' => ?_, fun hnone => absurd hnone (Option.some_ne_none id)⟩
      obtain rfl : id = id' := Option.some.inj hid'
      rfl
    · rw [if_neg hid, if_neg (mt hknown.mp hid)]
      have hnew : id ∉ states.map (·.1) := mt (hseen id).mpr hid
      have hseen' : ∀ id', id' ∈ id :: seen ↔
          id' ∈ (states ++ [(id, accepting)]).map (·.1) := by simp [hseen, or_comm]
      have hcases := ih (h.concat hnew accepting) hseen'
      rwa [List.append_assoc, List.singleton_append] at hcases

theorem chooseInitial_eq {m : StateMap} (h : m.keys = Ascending.ofList b.ids) :
    b.chooseInitial m = b.checkInitial := by
  unfold chooseInitial checkInitial
  cases b.initial with
  | none => rfl
  | some i => simp only [isSome_get?_iff h]

/-! ## edges -/

/-- the transitions of the state `id` after the edges of the list -/
structure Leaving (id : String) (edges : List Edge) (transitions : List (Char × String)) :
    Prop where
  ordered : Ordered (transitions : Entries Char String)
  get? : ∀ c, Entries.get? transitions c =
    (edges.find? fun e => e.source = id ∧ e.symbol = c).map (·.target)

/-- the map knows the states with the edges that were inserted -/
structure Inserted (b : Blueprint) (edges : List Edge) (m : StateMap) : Prop where
  keys : m.keys = Ascending.ofList b.ids
  get? : ∀ id ∈ b.ids, ∃ transitions, Leaving id edges transitions ∧
    m.get? id = some ⟨id, Accepts b.states id, transitions⟩

theorem Inserted.ordered {edges : List Edge} {m : StateMap} (h : Inserted b edges m) :
    Ordered m := by
  rw [Ordered, h.keys]
  exact Ascending.ascends_ofList _

theorem inserted_of_declared {m : StateMap} (h : Declared b.states m) : Inserted b [] m :=
  ⟨h.keys, fun id hid => ⟨[], ⟨Entries.ordered_nil, fun _ => rfl⟩, h.get? id hid⟩⟩

/-- an edge that leaves another state, or on another symbol, is not found -/
theorem find?_concat_of_ne {edges : List Edge} {e : Edge} {id : String} {c : Char}
    (h : ¬ (e.source = id ∧ e.symbol = c)) :
    (edges ++ [e]).find? (fun f => f.source = id ∧ f.symbol = c) =
      edges.find? fun f => f.source = id ∧ f.symbol = c := by
  rw [List.find?_append, List.find?_cons_of_neg (by simpa using h), List.find?_nil, Option.or_none]

theorem Leaving.concat {e : Edge} {edges : List Edge} {transitions : List (Char × String)}
    (h : Leaving e.source edges transitions)
    (hnew : Entries.get? transitions e.symbol = none) :
    Leaving e.source (edges ++ [e]) (Entries.put e.symbol (fun _ => e.target) transitions) where
  ordered := h.ordered.put _ _
  get? c := by
    rw [h.ordered.get?_put]
    by_cases hc : c = e.symbol
    · subst hc
      have hnone : edges.find? (fun f => f.source = e.source ∧ f.symbol = e.symbol) = none := by
        rw [h.get?, Option.map_eq_none_iff] at hnew
        exact hnew
      rw [if_pos rfl, List.find?_append, hnone, Option.none_or,
        List.find?_cons_of_pos (by simp), Option.map_some]
    · rw [if_neg hc, h.get?, find?_concat_of_ne fun hsame => hc hsame.2.symm]

theorem Leaving.concat_of_ne {id : String} {e : Edge} {edges : List Edge}
    {transitions : List (Char × String)} (h : Leaving id edges transitions)
    (hne : id ≠ e.source) : Leaving id (edges ++ [e]) transitions where
  ordered := h.ordered
  get? c := by rw [h.get?, find?_concat_of_ne fun hsame => hne hsame.1.symm]

/-- the checks of an edge, and what the map knows behind them -/
theorem insertEdge_cases {edges before : List Edge} {m : StateMap} (h : Inserted b edges m)
    (hbefore : ∀ f, f ∈ before ↔ f ∈ edges) (e : Edge) :
    (∀ d, b.edgeDefect before e = some d → b.insertEdge m e = .error d) ∧
    (b.edgeDefect before e = none →
      ∃ m', b.insertEdge m e = .ok m' ∧ Inserted b (edges ++ [e]) m') := by
  unfold edgeDefect insertEdge
  by_cases htarget : e.target ∈ b.ids
  · by_cases hsymbol : e.symbol ∈ b.alphabet
    · by_cases hsource : e.source ∈ b.ids
      · obtain ⟨transitions, hleaving, hget⟩ := h.get? e.source hsource
        have hreplaced : (Entries.get? transitions e.symbol).isSome = true ↔
            before.any (fun f => f.source = e.source ∧ f.symbol = e.symbol) = true := by
          rw [hleaving.get?, Option.isSome_map, List.find?_isSome, List.any_eq_true]
          simp only [hbefore]
        rw [if_neg (mt (isNone_get?_iff h.keys _).mp (not_not_intro htarget)),
          if_neg (not_not_intro htarget), if_neg (not_not_intro hsymbol),
          if_neg (not_not_intro hsymbol), if_neg (not_not_intro hsource), hget]
        dsimp only
        by_cases hany : before.any (fun f => f.source = e.source ∧ f.symbol = e.symbol) = true
        · rw [if_pos hany, if_pos (hreplaced.mpr hany)]
          refine ⟨fun d hd => ?_, fun hnone => nomatch hnone⟩
          rw [Option.some.inj hd]
        · rw [if_neg hany, if_neg (mt hreplaced.mp hany)]
          have hnew : Entries.get? transitions e.symbol = none := by
            rw [← Option.not_isSome_iff_eq_none]
            exact mt hreplaced.mp hany
          refine ⟨fun d hd => (nomatch hd), fun _ => ⟨_, rfl, ?_, fun id hid => ?_⟩⟩
          · rw [Entries.keys_put, h.keys]
            exact Ascending.insert_of_mem (Ascending.ascends_ofList _)
              (Ascending.mem_ofList.mpr hsource)
          · rw [h.ordered.get?_put]
            by_cases hne : id = e.source
            · subst hne
              exact ⟨_, hleaving.concat hnew, if_pos rfl⟩
            · obtain ⟨others, hothers, hother⟩ := h.get? id hid
              exact ⟨others, hothers.concat_of_ne hne, (if_neg hne).trans hother⟩
      · have hnone : m.get? e.source = none := by
          rw [← Option.isNone_iff_eq_none]
          exact (isNone_get?_iff h.keys _).mpr hsource
        rw [if_neg (mt (isNone_get?_iff h.keys _).mp (not_not_intro htarget)),
          if_neg (not_not_intro htarget), if_neg (not_not_intro hsymbol),
          if_neg (not_not_intro hsymbol), if_pos hsource, hnone]
        refine ⟨fun d hd => ?_, fun hfalse => nomatch hfalse⟩
        rw [Option.some.inj hd]
    · rw [if_neg (mt (isNone_get?_iff h.keys _).mp (not_not_intro htarget)),
        if_neg (not_not_intro htarget), if_pos hsymbol, if_pos hsymbol]
      refine ⟨fun d hd => ?_, fun hfalse => nomatch hfalse⟩
      rw [Option.some.inj hd]
  · rw [if_pos htarget, if_pos ((isNone_get?_iff h.keys _).mpr htarget)]
    refine ⟨fun d hd => ?_, fun hfalse => nomatch hfalse⟩
    rw [Option.some.inj hd]

theorem insertEdges_cases {edges before : List Edge} {m : StateMap} (h : Inserted b edges m)
    (hbefore : ∀ f, f ∈ before ↔ f ∈ edges) (es : List Edge) :
    (∀ d, b.firstEdgeDefect before es = some d → b.insertEdges es m = .error d) ∧
    (b.firstEdgeDefect before es = none →
      ∃ m', b.insertEdges es m = .ok m' ∧ Inserted b (edges ++ es) m') := by
  induction es generalizing edges before m with
  | nil =>
    refine ⟨fun d hd => absurd hd.symm (Option.some_ne_none d), fun _ => ⟨m, rfl, ?_⟩⟩
    rwa [List.append_nil]
  | cons e es ih =>
    obtain ⟨hdefect, hinsert⟩ := insertEdge_cases h hbefore e
    unfold firstEdgeDefect insertEdges
    cases he : b.edgeDefect before e with
    | some d =>
      rw [hdefect d he]
      refine ⟨fun d' hd' => ?_, fun hnone => absurd hnone (Option.some_ne_none d)⟩
      rw [← Option.some.inj hd']
      rfl
    | none =>
      obtain ⟨m', hm', hinserted⟩ := hinsert he
      have hbefore' : ∀ f, f ∈ e :: before ↔ f ∈ edges ++ [e] := by simp [hbefore, or_comm]
      have hcases := ih hinserted hbefore'
      rw [List.append_assoc, List.singleton_append] at hcases
      rw [hm']
      exact hcases

/-! ## the automaton -/

/-- with all edges inserted, the state is the one that the blueprint names -/
theorem Leaving.stateNamed_eq (halphabet : Ascending.Ascends b.alphabet)
    (hsymbols : ∀ e ∈ b.edges, e.symbol ∈ b.alphabet) {id : String}
    {transitions : List (Char × String)} (h : Leaving id b.edges transitions) :
    (⟨id, Accepts b.states id, transitions⟩ : State) = b.stateNamed id := by
  have hnamed : transitions = (b.stateNamed id).transitions := by
    refine h.ordered.ext (ascends_symbols_stateNamed halphabet id) fun c => ?_
    rw [h.get?]
    by_cases hc : c ∈ b.alphabet
    · exact (next?_stateNamed hc id).symm
    · have hnone : b.edges.find? (fun e => e.source = id ∧ e.symbol = c) = none := by
        rw [List.find?_eq_none]
        rintro e he hsame
        obtain ⟨_, rfl⟩ := of_decide_eq_true hsame
        exact hc (hsymbols e he)
      rw [hnone, stateNamed, Entries.get?, find?_row, if_neg hc]
      rfl
  rw [hnamed]
  rfl

theorem Inserted.states_eq (halphabet : Ascending.Ascends b.alphabet)
    (hsymbols : ∀ e ∈ b.edges, e.symbol ∈ b.alphabet) {m : StateMap}
    (h : Inserted b b.edges m) : m.map (·.2) = (Ascending.ofList b.ids).map b.stateNamed := by
  rw [h.ordered.eq_map_keys (b.stateNamed ""), h.keys, List.map_map]
  refine List.map_congr_left fun id hid => ?_
  obtain ⟨transitions, hleaving, hget⟩ := h.get? id (Ascending.mem_ofList.mp hid)
  simp only [Function.comp_apply, hget, Option.getD_some]
  exact hleaving.stateNamed_eq halphabet hsymbols

theorem buildInPlace_eq (halphabet : Ascending.Ascends b.alphabet) : b.buildInPlace = b.build := by
  have hseen : ∀ id : String, id ∈ ([] : List String) ↔ id ∈ [] := fun _ => Iff.rfl
  have hbefore : ∀ e : Edge, e ∈ ([] : List Edge) ↔ e ∈ [] := fun _ => Iff.rfl
  obtain ⟨hrepeat, hdeclare⟩ := declareStates_cases b.name declared_nil hseen b.states
  unfold buildInPlace build
  cases hids : firstRepeat [] b.ids with
  | some id =>
    rw [hrepeat id hids]
    rfl
  | none =>
    obtain ⟨m, hm, hdeclared⟩ := hdeclare hids
    rw [List.nil_append] at hdeclared
    have hinserted := inserted_of_declared hdeclared
    rw [hm]
    show (b.chooseInitial m >>= _) = (b.checkInitial >>= _)
    rw [chooseInitial_eq hinserted.keys]
    cases b.checkInitial with
    | error d => rfl
    | ok i =>
      obtain ⟨hdefect, hinsert⟩ := insertEdges_cases hinserted hbefore b.edges
      cases hedges : b.firstEdgeDefect [] b.edges with
      | some d =>
        show (b.insertEdges b.edges m >>= _) = .error d
        rw [hdefect d hedges]
        rfl
      | none =>
        obtain ⟨m', hm', hall⟩ := hinsert hedges
        have hsymbols : ∀ e ∈ b.edges, e.symbol ∈ b.alphabet := fun e he =>
          ((firstEdgeDefect_eq_none_iff.mp hedges).1 e he).2.1
        rw [List.nil_append] at hall
        show (b.insertEdges b.edges m >>= _) = .ok (b.assemble i)
        rw [hm', assemble, ← hall.states_eq halphabet hsymbols]
        rfl

/-- **Clauses give the same automaton in place**, or the same defect. -/
theorem buildInPlace_ofClauses (name : String) (cs : List Clause) :
    (ofClauses name cs).buildInPlace = (ofClauses name cs).build :=
  buildInPlace_eq (ascends_alphabet_ofClauses name cs)

end SpanishSyntax.Automaton.Blueprint
