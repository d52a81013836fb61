import SpanishSyntax.Proofs.Grammar.Table
import SpanishSyntax.Proofs.Parse.Moves

/-!
# The guard against loops never fires

A frame carries the nonterminals that were opened on the way to it since the last token.  While
a run goes on, each of them reaches the symbol of the frame by the leading relation as soon as
the frames above it are gone, because frames go without reading a token only if they can vanish
(`Machine.Guarded`).  A table is built only if no nonterminal reaches itself, so the nonterminal
on top of the stack is never open.
-/

namespace SpanishSyntax.Parse.Machine

variable {g : Grammar} {s : GrammarSets}

/-- the opened nonterminals of every frame reach its symbol, if what stands above it vanishes -/
def Anchored (g : Grammar) (s : GrammarSets) : List Symbol → List Frame → Prop
  | _, [] => True
  | above, f :: below =>
    ((s.first.firstOf above).nullable = true → ∀ o ∈ f.opened, ∀ n, f.symbol = .nonterminal n →
      Relation.TransGen (g.Leads s) o n) ∧ Anchored g s (above ++ [f.symbol]) below

theorem anchored_of_vanishing {above above' : List Symbol} {stack : List Frame}
    (hv : (s.first.firstOf above').nullable = true → (s.first.firstOf above).nullable = true)
    (h : Anchored g s above stack) : Anchored g s above' stack := by
  induction stack generalizing above above' with
  | nil => trivial
  | cons f below ih =>
    obtain ⟨hf, hbelow⟩ := h
    refine ⟨fun hn => hf (hv hn), ih (fun hn => ?_) hbelow⟩
    rw [FirstTable.nullable_firstOf_append] at hn ⊢
    exact ⟨hv hn.1, hn.2⟩

theorem anchored_append {above : List Symbol} {a b : List Frame} (ha : Anchored g s above a)
    (hb : Anchored g s (above ++ a.map (·.symbol)) b) : Anchored g s above (a ++ b) := by
  induction a generalizing above with
  | nil =>
    rw [List.map_nil, List.append_nil] at hb
    exact hb
  | cons f a ih =>
    obtain ⟨hf, ha⟩ := ha
    refine ⟨hf, ih ha ?_⟩
    rw [List.map_cons] at hb
    rwa [List.append_assoc]

theorem anchored_closeAll (g : Grammar) (s : GrammarSets) (above : List Symbol)
    (stack : List Frame) : Anchored g s above (closeAll stack) := by
  induction stack generalizing above with
  | nil => trivial
  | cons f below ih => exact ⟨fun _ _ ho => (nomatch ho), ih _⟩

/-- behind the part `u` of a body, the head and all that was open before it reach the rest -/
theorem anchored_expansion {p : Production} (hp : p ∈ g.productions) {opened : List String}
    (ho : ∀ o ∈ opened, Relation.TransGen (g.Leads s) o p.head) :
    Anchored g s [] (expansion p opened) := by
  suffices hpart : ∀ u v, p.body = u ++ v →
      Anchored g s u (v.map fun x => ⟨x, p.head :: opened⟩) from hpart [] p.body rfl
  intro u v hbody
  induction v generalizing u with
  | nil => trivial
  | cons x v ih =>
    refine ⟨fun hu o hmem n hn => ?_, ih (u ++ [x]) (by rw [hbody, List.append_assoc]; rfl)⟩
    have hlead : g.Leads s p.head n := by
      obtain rfl : x = .nonterminal n := hn
      refine Grammar.leads_iff.mpr ⟨p, hp, rfl, ?_⟩
      rw [hbody]
      exact GrammarSets.mem_leading_of_nullable hu
    rcases List.mem_cons.mp hmem with rfl | hmem
    · exact .single hlead
    · exact (ho o hmem).tail hlead

/-! ## along a run -/

variable {t : ParseTable}

def Guarded (g : Grammar) (t : ParseTable) (m : Machine) : Prop := Anchored g t.sets [] m.stack

theorem guarded_initial (g : Grammar) (t : ParseTable) (start : String) (tokens : List String) :
    Guarded g t (initial start tokens) :=
  ⟨fun _ _ ho => (nomatch ho), trivial⟩

theorem Guarded.not_open (hb : t.Built g) {m : Machine} (h : Guarded g t m) {n : String}
    {opened : List String} {below : List Frame} {p : Production}
    (hs : m.stack = ⟨.nonterminal n, opened⟩ :: below)
    (hp : t.predict n (Lookahead.ofRest m.rest) = some p) : p.head ∉ opened := by
  intro ho
  obtain ⟨hmem, rfl, _⟩ := hb.predicted hp
  unfold Guarded at h
  rw [hs] at h
  exact hb.acyclic _ (hb.valid.head_mem p hmem) (h.1 rfl _ ho _ rfl)

theorem Guarded.of_move (hb : t.Built g) {m m' : Machine} {a : Action} (h : Guarded g t m)
    (hm : Move t m a m') : Guarded g t m' := by
  cases hm with
  | read => exact anchored_closeAll g t.sets [] _
  | @expand n opened below position rest p hp _ =>
    obtain ⟨hmem, rfl, _⟩ := hb.predicted hp
    obtain ⟨htop, hbelow⟩ := h
    refine anchored_append (anchored_expansion hmem fun o ho => htop rfl o ho _ rfl) ?_
    refine anchored_of_vanishing (fun hn => ?_) hbelow
    -- the body stands where the head stood, and it can vanish only if the head can
    rw [List.nil_append, expansion, List.map_map] at hn
    have hbody : (t.sets.first.firstOf p.body).nullable = true := by
      rwa [show (p.body.map ((·.symbol) ∘ fun x => (⟨x, p.head :: opened⟩ : Frame))) = p.body
        from List.map_id _] at hn
    rw [hb.sets] at hbody ⊢
    exact (Grammar.closed_firstTable hb.valid p hmem).nullable hbody

theorem Guarded.of_reaches (hb : t.Built g) {m m' : Machine} (h : Guarded g t m)
    (hr : Reaches t m m') : Guarded g t m' := by
  induction hr with
  | refl => exact h
  | tail _ hlast ih =>
    obtain ⟨a, hm⟩ := hlast
    exact ih.of_move hb (step_eq_next_iff.mp hm)

theorem Guarded.halt_ne (hb : t.Built g) {m : Machine} {e : Option Rejection}
    (h : Guarded g t m) (he : Halt t m e) (n : String) (k : Nat) :
    e ≠ some (.leftRecursion n k) := by
  cases he with
  | done => simp
  | unread => simp
  | exhausted => simp
  | mismatch => simp
  | unpredicted hs _ =>
    unfold noPrediction
    split <;> simp
  | looping hp ho => exact absurd ho (h.not_open hb rfl hp)

/-- **Every run ends, and never at the guard**: it reaches a state that halts, and no state that
it reaches expands a nonterminal that is open. -/
theorem exists_halt_of_build {d : Declaration} {policy : ConflictPolicy} (hg : d.build = .ok g)
    (ht : ParseTable.build g policy = .ok t) (w : List String) :
    (∃ m e, Reaches t (initial g.start w) m ∧ m.step t = .halt e ∧ (t.parse w).error = e) ∧
    (∀ n k, (t.parse w).error ≠ some (.leftRecursion n k)) ∧
    ∀ m, Reaches t (initial g.start w) m → ∀ n opened below p,
      m.stack = ⟨.nonterminal n, opened⟩ :: below →
      t.predict n (Lookahead.ofRest m.rest) = some p → p.head = n ∧ n ∉ opened := by
  have hb := ParseTable.built_of_build hg ht
  have hstart := guarded_initial g t g.start w
  have herror : (t.parse w).error = ((initial g.start w).run t).error := by rw [← hb.grammar]; rfl
  obtain ⟨m, e, hreach, hhalt, hrun, _⟩ := exists_halt t (initial g.start w)
  refine ⟨⟨m, e, hreach, hhalt, herror.trans hrun⟩, fun n k => ?_, ?_⟩
  · rw [herror, hrun]
    exact (hstart.of_reaches hb hreach).halt_ne hb (step_eq_halt_iff.mp hhalt) n k
  · intro m hreach n opened below p hs hp
    obtain ⟨_, rfl, _⟩ := hb.predicted hp
    exact ⟨rfl, (hstart.of_reaches hb hreach).not_open hb hs hp⟩

/-- two parts that can vanish in two ways: a nonterminal is expanded again where it was before -/
def vanishing : Declaration :=
  ⟨"S", ["S", "A", "B"], ["a"],
    [("S", ["A", "A", "a"]), ("S", ["A"]), ("A", []), ("A", ["B"]), ("B", [])]⟩

def vanishingGrammar : Grammar :=
  ⟨"S", ["S", "A", "B"], ["a"],
    [⟨"S", [.nonterminal "A", .nonterminal "A", .terminal "a"]⟩, ⟨"S", [.nonterminal "A"]⟩,
      ⟨"A", []⟩, ⟨"A", [.nonterminal "B"]⟩, ⟨"B", []⟩]⟩

def vanishingTable : ParseTable :=
  .assemble vanishingGrammar (.ofGrammar vanishingGrammar) .firstListed

theorem build_vanishingGrammar :
    ParseTable.build vanishingGrammar .firstListed = .ok vanishingTable :=
  ParseTable.build_eq_ok_iff.mpr ⟨by decide, rfl, fun h => nomatch h⟩

theorem parse_vanishing_ends :
    vanishing.build = .ok vanishingGrammar ∧
      ParseTable.build vanishingGrammar .firstListed = .ok vanishingTable ∧
      vanishingTable.isLL1 = false ∧
      (vanishingTable.parse ["a"]).error ≠ some (.leftRecursion "A" 0) :=
  ⟨rfl, build_vanishingGrammar, by decide,
    (exists_halt_of_build (d := vanishing) rfl build_vanishingGrammar ["a"]).2.1 "A" 0⟩

end SpanishSyntax.Parse.Machine
