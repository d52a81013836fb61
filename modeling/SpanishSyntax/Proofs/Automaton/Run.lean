import Mathlib.Data.List.Infix
import SpanishSyntax.Automaton.Run
import SpanishSyntax.Proofs.Automaton.Consistent

/-!
# What a simulation records

`a.Path s ts t` says that the transitions `ts` lead from the state `s` to `t`.  It speaks of the
table of the automaton only, not of the functions that run it.

* `reach?_eq_some_iff`     the iterated transition function gives the end of the path that spells
                           the text;
* `exists_stops`           a simulation is a path, and it stops for one of four reasons (`Stops`);
* `exact_simulate`         the steps are the longest path along the input, and what is said of the
                           stop is what the table says of the next character.
-/

namespace SpanishSyntax.Automaton

inductive Path (a : Automaton) : State → List Transition → State → Prop where
  | nil (s : State) : Path a s [] s
  | cons {s t u : State} {c : Char} {ts : List Transition} (hedge : (c, t.id) ∈ s.transitions)
      (ht : t ∈ a.states) (h : Path a t ts u) : Path a s (⟨s.id, c, t.id⟩ :: ts) u

/-- the text that is read along transitions -/
def spelled (ts : List Transition) : List Char := ts.map (·.symbol)

section
variable {a : Automaton}

theorem Path.last_mem {s t : State} {ts : List Transition} (h : a.Path s ts t) (hs : s ∈ a.states) :
    t ∈ a.states := by
  induction h with
  | nil => exact hs
  | cons _ ht _ ih => exact ih ht

theorem reach?_eq_some_iff (ha : a.Consistent) {s t : State} (hs : s ∈ a.states) {cs : List Char} :
    a.reach? s cs = some t ↔ ∃ ts, a.Path s ts t ∧ spelled ts = cs := by
  induction cs generalizing s with
  | nil =>
    rw [reach?_nil, Option.some.injEq]
    constructor
    · rintro rfl
      exact ⟨[], .nil s, rfl⟩
    · rintro ⟨ts, hpath, hts⟩
      cases hpath with
      | nil => rfl
      | cons => cases hts
  | cons c cs ih =>
    rw [reach?, Option.bind_eq_some_iff]
    constructor
    · rintro ⟨u, hstep, hreach⟩
      obtain ⟨hedge, hu⟩ := (ha.step?_eq_some_iff hs).mp hstep
      obtain ⟨ts, hpath, rfl⟩ := (ih hu).mp hreach
      exact ⟨_, .cons hedge hu hpath, rfl⟩
    · rintro ⟨ts, hpath, hts⟩
      cases hpath with
      | nil => cases hts
      | cons hedge hu hpath =>
        obtain ⟨rfl, rfl⟩ := List.cons.inj hts
        exact ⟨_, (ha.step?_eq_some_iff hs).mpr ⟨hedge, hu⟩, (ih hu).mpr ⟨_, hpath, rfl⟩⟩

theorem mem_alphabet_of_reach? {s t : State} {cs : List Char} (h : a.reach? s cs = some t) :
    ∀ c ∈ cs, c ∈ a.alphabet := by
  induction cs generalizing s with
  | nil => exact fun _ hc => nomatch hc
  | cons c cs ih =>
    obtain ⟨u, hstep, hreach⟩ := Option.bind_eq_some_iff.mp h
    refine List.forall_mem_cons.mpr ⟨?_, ih hreach⟩
    by_contra hc
    rw [step?, if_neg hc] at hstep
    cases hstep

end

/-! ## the stop -/

/-- why a run stops in `s` at position `n` with the rest of the input ahead -/
inductive Stops (a : Automaton) (s : State) (n : Nat) : List Char → Bool → Option Halt → Prop where
  | accepts (h : s.accepting = true) : Stops a s n [] true none
  | exhausted (h : s.accepting = false) :
      Stops a s n [] false (some (.incompleteAcceptance s.id n))
  | outside {c : Char} (hc : c ∉ a.alphabet) (cs : List Char) :
      Stops a s n (c :: cs) false (some (.alphabetViolation c n))
  | stuck {c : Char} (hc : c ∈ a.alphabet) (hstep : a.step? s c = none) (cs : List Char) :
      Stops a s n (c :: cs) false (some (.noTransition s.id c n))

/-- what a halt says is what holds of the last state and of the character after it -/
structure Halt.Explains (h : Halt) (a : Automaton) (last : State) (n : Nat) (next : Option Char) :
    Prop where
  position_eq : h.position = n
  outside_iff : ∀ c, h = .alphabetViolation c n ↔ next = some c ∧ c ∉ a.alphabet
  stuck_iff : ∀ q c, h = .noTransition q c n ↔
    q = last.id ∧ next = some c ∧ c ∈ a.alphabet ∧ ∀ target, (c, target) ∉ last.transitions
  exhausted_iff : ∀ q, h = .incompleteAcceptance q n ↔ q = last.id ∧ next = none

/-- the record of the run over `cs`, which ends in `last` -/
structure Exact (a : Automaton) (cs : List Char) (r : Simulation) (last : State) : Prop where
  path : a.Path a.start r.steps last
  spells : spelled r.steps <+: cs
  longest : ∀ ts t, a.Path a.start ts t → spelled ts <+: cs → ts <+: r.steps
  accepted_eq : r.accepted = r.halt.isNone
  accepted_iff : r.accepted = true ↔
    ∃ ts t, a.Path a.start ts t ∧ spelled ts = cs ∧ t.accepting = true
  explains : ∀ h, r.halt = some h → h.Explains a last r.steps.length cs[r.steps.length]?

section
variable {a : Automaton}

theorem stops_blocked {s : State} {c : Char} (hstep : a.step? s c = none) (n : Nat)
    (cs : List Char) : a.Stops s n (c :: cs) false (some (a.blocked s c n)) := by
  unfold blocked
  split
  · rename_i hc
    exact .stuck hc hstep cs
  · rename_i hc
    exact .outside hc cs

theorem exists_stops (ha : a.Consistent) {s : State} (hs : s ∈ a.states) (n : Nat)
    (cs : List Char) : ∃ last rest, a.Path s (a.simulateFrom s n cs).steps last ∧
      cs = spelled (a.simulateFrom s n cs).steps ++ rest ∧
      a.Stops last (n + (a.simulateFrom s n cs).steps.length) rest
        (a.simulateFrom s n cs).accepted (a.simulateFrom s n cs).halt := by
  induction cs generalizing s n with
  | nil =>
    rw [simulateFrom_nil]
    split
    · rename_i hacc
      exact ⟨s, [], .nil s, rfl, .accepts hacc⟩
    · rename_i hacc
      exact ⟨s, [], .nil s, rfl, .exhausted (Bool.eq_false_iff.mpr hacc)⟩
  | cons c cs ih =>
    unfold simulateFrom
    cases hstep : a.step? s c with
    | none => exact ⟨s, c :: cs, .nil s, rfl, stops_blocked hstep n cs⟩
    | some t =>
      obtain ⟨hedge, ht⟩ := (ha.step?_eq_some_iff hs).mp hstep
      obtain ⟨last, rest, hpath, hcs, hstops⟩ := ih ht (n + 1)
      refine ⟨last, rest, .cons hedge ht hpath, congrArg (c :: ·) hcs, ?_⟩
      rw [Nat.add_right_comm] at hstops
      exact hstops

theorem Stops.explains (ha : a.Consistent) {last : State} {n : Nat} {rest : List Char}
    {accepted : Bool} {h : Halt} (hlast : last ∈ a.states)
    (hstops : a.Stops last n rest accepted (some h)) : h.Explains a last n rest.head? := by
  cases hstops with
  | exhausted => constructor <;> simp [Halt.position, eq_comm]
  | @outside c hc cs =>
    refine ⟨rfl, fun d => ?_, fun q d => ?_, fun q => ?_⟩
    · rw [Halt.alphabetViolation.injEq, List.head?_cons, Option.some.injEq]
      exact ⟨fun ⟨hd, _⟩ => ⟨hd, hd ▸ hc⟩, fun ⟨hd, _⟩ => ⟨hd, rfl⟩⟩
    · refine iff_of_false (fun hfalse => nomatch hfalse) ?_
      rintro ⟨_, hd, hmem, _⟩
      exact hc (Option.some.inj hd ▸ hmem)
    · exact iff_of_false (fun hfalse => nomatch hfalse) fun ⟨_, hd⟩ => nomatch hd
  | @stuck c hc hstep cs =>
    have hnone : ∀ target, (c, target) ∉ last.transitions := fun target hedge => by
      have hnext := (ha.next?_eq_some_iff hlast).mpr hedge
      rw [(ha.step?_eq_none_iff hlast).mp hstep] at hnext
      cases hnext
    refine ⟨rfl, fun d => ?_, fun q d => ?_, fun q => ?_⟩
    · refine iff_of_false (fun hfalse => nomatch hfalse) ?_
      rintro ⟨hd, hout⟩
      exact hout (Option.some.inj hd ▸ hc)
    · rw [Halt.noTransition.injEq, List.head?_cons, Option.some.injEq]
      constructor
      · rintro ⟨rfl, rfl, _⟩
        exact ⟨rfl, rfl, hc, hnone⟩
      · rintro ⟨rfl, rfl, _⟩
        exact ⟨rfl, rfl, rfl⟩
    · exact iff_of_false (fun hfalse => nomatch hfalse) fun ⟨_, hd⟩ => nomatch hd

/-- no path along the input goes further than the stop -/
theorem Stops.longest (ha : a.Consistent) {s last t : State} {ts us : List Transition}
    {rest : List Char} {n : Nat} {accepted : Bool} {halt : Option Halt} (hs : s ∈ a.states)
    (hpath : a.Path s us last) (hstops : a.Stops last n rest accepted halt) (ht : a.Path s ts t)
    (h : spelled ts <+: spelled us ++ rest) : ts <+: us := by
  induction hpath generalizing ts t with
  | nil s =>
    cases ht with
    | nil => exact List.nil_prefix
    | cons hedge hmem _ =>
      cases hstops with
      | accepts | exhausted => exact absurd (List.prefix_nil.mp h) (List.cons_ne_nil _ _)
      | outside hc =>
        obtain ⟨rfl, _⟩ := List.cons_prefix_cons.mp h
        exact absurd (ha.symbol_mem s hs _ _ hedge) hc
      | stuck _ hnone =>
        obtain ⟨rfl, _⟩ := List.cons_prefix_cons.mp h
        rw [(ha.step?_eq_some_iff hs).mpr ⟨hedge, hmem⟩] at hnone
        cases hnone
  | cons hedge hmem _ ih =>
    cases ht with
    | nil => exact List.nil_prefix
    | cons hedge' hmem' ht =>
      obtain ⟨rfl, htail⟩ := List.cons_prefix_cons.mp h
      obtain rfl := ha.target_unique hs ⟨hedge, hmem⟩ ⟨hedge', hmem'⟩
      exact List.cons_prefix_cons.mpr ⟨rfl, ih hmem hstops ht htail⟩

theorem Stops.accepted_eq {s : State} {n : Nat} {rest : List Char} {accepted : Bool}
    {halt : Option Halt} (h : a.Stops s n rest accepted halt) : accepted = halt.isNone := by
  cases h <;> rfl

theorem Stops.accepted_iff {s : State} {n : Nat} {rest : List Char} {accepted : Bool}
    {halt : Option Halt} (h : a.Stops s n rest accepted halt) :
    accepted = true ↔ rest = [] ∧ s.accepting = true := by
  cases h with
  | accepts hacc => exact iff_of_true rfl ⟨rfl, hacc⟩
  | exhausted hacc => simp [hacc]
  | outside | stuck =>
    exact iff_of_false (fun hfalse => nomatch hfalse) fun hrest => nomatch hrest.1

/-- transitions in front of others that spell as much and more are all of them -/
theorem eq_of_spelled {ts us : List Transition} {rest : List Char} (h : ts <+: us)
    (hspelled : spelled ts = spelled us ++ rest) : ts = us ∧ rest = [] := by
  obtain ⟨vs, rfl⟩ := h
  rw [spelled, spelled, List.map_append, List.append_assoc] at hspelled
  have hnil := List.self_eq_append_right.mp hspelled
  rw [List.append_eq_nil_iff, List.map_eq_nil_iff] at hnil
  exact ⟨by rw [hnil.1, List.append_nil], hnil.2⟩

theorem Path.last_unique (ha : a.Consistent) {s t u : State} (hs : s ∈ a.states)
    {ts : List Transition} (ht : a.Path s ts t) (hu : a.Path s ts u) : t = u := by
  have hreach := (reach?_eq_some_iff ha hs).mpr ⟨ts, ht, rfl⟩
  rw [(reach?_eq_some_iff ha hs).mpr ⟨ts, hu, rfl⟩] at hreach
  exact (Option.some.inj hreach).symm

theorem exact_simulate (ha : a.Consistent) (input : String) :
    ∃ last ∈ a.states, a.Exact input.toList (a.simulate input) last := by
  obtain ⟨last, rest, hpath, hcs, hstops⟩ := exists_stops ha ha.start_mem 0 input.toList
  have hlast := hpath.last_mem ha.start_mem
  rw [Nat.zero_add] at hstops
  rw [← simulate] at hpath hcs hstops
  have hlongest : ∀ ts t, a.Path a.start ts t → spelled ts <+: input.toList →
      ts <+: (a.simulate input).steps := fun ts t ht h =>
    hstops.longest ha ha.start_mem hpath ht (hcs ▸ h)
  refine ⟨last, hlast, hpath, ⟨rest, hcs.symm⟩, hlongest, hstops.accepted_eq, ?_, fun h hh => ?_⟩
  · rw [hstops.accepted_iff]
    constructor
    · rintro ⟨rfl, hacc⟩
      exact ⟨_, last, hpath, by rw [hcs, List.append_nil], hacc⟩
    · rintro ⟨ts, t, ht, hts, hacc⟩
      -- a path that spells all of the input is the recorded one
      have hprefix := hlongest ts t ht (hts ▸ List.prefix_rfl)
      obtain ⟨rfl, rfl⟩ := eq_of_spelled hprefix (hts.trans hcs)
      exact ⟨rfl, ht.last_unique ha ha.start_mem hpath ▸ hacc⟩
  · rw [hh] at hstops
    have hnext : input.toList[(a.simulate input).steps.length]? = rest.head? := by
      have hlength : (spelled (a.simulate input).steps).length = (a.simulate input).steps.length :=
        List.length_map _
      rw [hcs, List.getElem?_append_right (Nat.le_of_eq hlength), hlength, Nat.sub_self,
        List.head?_eq_getElem?]
    rw [hnext]
    exact hstops.explains ha hlast

/-- where a run stops for want of a transition, the table has none -/
theorem exists_stuck (ha : a.Consistent) {input : String} {q : String} {c : Char} {n : Nat}
    (h : (a.simulate input).halt = some (.noTransition q c n)) :
    ∃ ts, ∃ last ∈ a.states, a.Path a.start ts last ∧ ts.length = n ∧ c ∈ a.alphabet ∧
      ∀ target, (c, target) ∉ last.transitions := by
  obtain ⟨last, hlast, hexact⟩ := exact_simulate ha input
  have hexplains := hexact.explains _ h
  have hn : n = (a.simulate input).steps.length := hexplains.position_eq
  obtain ⟨_, _, hc, hnone⟩ := (hexplains.stuck_iff q c).mp (by rw [hn])
  exact ⟨_, last, hlast, hexact.path, hn.symm, hc, hnone⟩

theorem accepts_iff (ha : a.Consistent) (input : String) : a.accepts input = true ↔
    ∃ ts t, a.Path a.start ts t ∧ spelled ts = input.toList ∧ t.accepting = true := by
  unfold accepts
  cases hreach : a.reach? a.start input.toList with
  | none =>
    refine iff_of_false (fun hfalse => nomatch hfalse) ?_
    rintro ⟨ts, t, ht, hts, _⟩
    rw [(reach?_eq_some_iff ha ha.start_mem).mpr ⟨ts, ht, hts⟩] at hreach
    cases hreach
  | some t =>
    obtain ⟨ts, ht, hts⟩ := (reach?_eq_some_iff ha ha.start_mem).mp hreach
    constructor
    · exact fun hacc => ⟨ts, t, ht, hts, hacc⟩
    · rintro ⟨us, u, hu, hus, hacc⟩
      rw [(reach?_eq_some_iff ha ha.start_mem).mpr ⟨us, hu, hus⟩] at hreach
      exact Option.some.inj hreach ▸ hacc

theorem accepts_eq_accepted (ha : a.Consistent) (input : String) :
    a.accepts input = (a.simulate input).accepted := by
  obtain ⟨last, _, hexact⟩ := exact_simulate ha input
  exact Bool.eq_iff_iff.mpr ((accepts_iff ha input).trans hexact.accepted_iff.symm)

end

/-- **A simulation is the run of the automaton**, for every automaton that was built and every
input: both ways to run it agree, the steps are the longest path along the input, and the halt says
what is wrong with the character after it. -/
theorem simulate_of_build {name : String} {cs : List Clause} {a : Automaton}
    (h : (Blueprint.ofClauses name cs).build = .ok a) (input : String) :
    a.start ∈ a.states ∧ a.start.id = a.initial ∧
      a.accepts input = (a.simulate input).accepted ∧
      ∃ last ∈ a.states, a.Exact input.toList (a.simulate input) last := by
  have ha := Blueprint.consistent_of_build h
  obtain ⟨hstart, hid⟩ := ha.state?_eq_some_iff.mp ha.state?_initial
  exact ⟨hstart, hid, accepts_eq_accepted ha input, exact_simulate ha input⟩

/-- the run stops behind `"ba"`, where the automaton waits for another `'b'` -/
theorem simulate_alternating :
    (Blueprint.ofClauses "alternating" Clause.gatheredClauses).build = .ok Clause.alternating ∧
      Clause.alternating.simulate "baa" =
        ⟨[⟨"q0", 'b', "q1"⟩, ⟨"q1", 'a', "q0"⟩], false, some (.noTransition "q0" 'a' 2)⟩ ∧
      Clause.alternating.accepts "baa" = (Clause.alternating.simulate "baa").accepted ∧
      ∃ last ∈ Clause.alternating.states,
        Clause.alternating.Exact "baa".toList (Clause.alternating.simulate "baa") last := by
  have hbuild : (Blueprint.ofClauses "alternating" Clause.gatheredClauses).build =
      .ok Clause.alternating := by decide
  obtain ⟨_, _, hsame, hexact⟩ := simulate_of_build hbuild "baa"
  exact ⟨hbuild, by decide, hsame, hexact⟩

end SpanishSyntax.Automaton
