import SpanishSyntax.Proofs.Lexicon.Pattern.Constructs

/-!
# Reading a pattern inside a group

`Reads s cs p` says that the reader, in the state `s` and with the text `cs` ahead, comes to the
pattern `p`.  A text that can be read by itself is read in the same way one level deeper, up to the
parenthesis that closes the level, and is an item of the level around it then (`Reads.inside`).

Whatever is read has the bounds of its repetitions in order (`proper_of_read?`).
-/

namespace SpanishSyntax.Lexicon.Pattern

inductive Reads : Reading → List Char → Pattern → Prop where
  | done {s : Reading} (closed : s.outer = []) : Reads s [] s.level.close
  | step {s t : Reading} {k : Construct} {cs r : List Char} {p : Pattern}
      (read : Construct.read? cs = some (k, r)) (take : s.take? k = some t) (rest : Reads t r p) :
      Reads s cs p

namespace Reads

variable {s t : Reading} {k : Construct} {cs r : List Char} {p q : Pattern}

theorem nil_iff : Reads s [] p ↔ s.outer = [] ∧ p = s.level.close := by
  constructor
  · intro h
    cases h with
    | done closed => exact ⟨closed, rfl⟩
    | step read _ _ => cases read
  · rintro ⟨closed, rfl⟩
    exact .done closed

theorem of_read? (h : Reads s cs p) (hread : Construct.read? cs = some (k, r)) :
    ∃ t, s.take? k = some t ∧ Reads t r p := by
  cases h with
  | done => cases hread
  | step read take rest =>
    obtain ⟨rfl, rfl⟩ := Prod.mk.inj (Option.some.inj (read.symm.trans hread))
    exact ⟨_, take, rest⟩

theorem iff_of_read? (hread : Construct.read? cs = some (k, r)) (htake : s.take? k = some t) :
    Reads s cs p ↔ Reads t r p := by
  refine ⟨fun h => ?_, .step hread htake⟩
  obtain ⟨t', htake', hrest⟩ := h.of_read? hread
  obtain rfl := Option.some.inj (htake.symm.trans htake')
  exact hrest

end Reads

theorem run?_nil {s : Reading} {p : Pattern} (n : Nat) :
    Reading.run? n s [] = some p ↔ Reads s [] p := by
  rw [Reads.nil_iff, Reading.run?, ← List.isEmpty_iff]
  split
  · rename_i hclosed
    rw [and_iff_right hclosed, Option.some.injEq, eq_comm]
  · rename_i hopen
    exact iff_of_false (fun h => nomatch h) fun h => hopen h.1

theorem run?_eq_some_iff {s : Reading} {cs : List Char} {p : Pattern} {n : Nat}
    (hn : cs.length ≤ n) : Reading.run? n s cs = some p ↔ Reads s cs p := by
  induction n generalizing s cs with
  | zero =>
    obtain rfl := List.length_eq_zero_iff.mp (Nat.le_zero.mp hn)
    exact run?_nil 0
  | succ n ih =>
    cases cs with
    | nil => exact run?_nil (n + 1)
    | cons c cs =>
      cases hread : Construct.read? (c :: cs) with
      | none =>
        refine iff_of_false (fun h => ?_) fun h => ?_
        · rw [Reading.run?, hread] at h
          cases h
        · cases h with
          | step read _ _ => rw [hread] at read; cases read
      | some x =>
        obtain ⟨k, r⟩ := x
        obtain ⟨pre, hpre, hwritten, _⟩ := Construct.begins_of_read? hread
        have hshorter : r.length ≤ n := by
          have hpos := List.length_pos_iff.mpr hwritten.ne_nil
          have hlength := congrArg List.length hpre
          rw [List.length_append] at hlength
          omega
        rw [Reading.run?, hread]
        dsimp only
        cases htake : s.take? k with
        | none =>
          refine iff_of_false (fun h => nomatch h) fun h => ?_
          obtain ⟨t, ht, _⟩ := h.of_read? hread
          rw [htake] at ht
          cases ht
        | some t => exact (ih hshorter).trans (Reads.iff_of_read? hread htake).symm

theorem read?_eq_some_iff {cs : List Char} {p : Pattern} : read? cs = some p ↔ Reads .start cs p :=
  run?_eq_some_iff (Nat.le_refl _)

/-! ## one level deeper -/

namespace Reading

/-- what a construct does to the state of the reader -/
inductive Step (s : Reading) : Construct → Reading → Prop where
  | openGroup {name : Option (List Char)} (fresh : ∀ n ∈ name, n ∉ s.names) :
      Step s (.openGroup name) ⟨name.toList ++ s.names, .fresh, s.level :: s.outer⟩
  | closeGroup {l : Level} {ls : List Level} (outer_eq : s.outer = l :: ls) :
      Step s .closeGroup ⟨s.names, l.push s.level.close, ls⟩
  | bar : Step s .bar ⟨s.names, s.level.nextBranch, s.outer⟩
  | times {low : Nat} {high : Option Nat} {l : Level}
      (repeats : s.level.repeatLast? low high = some l) :
      Step s (.times low high) ⟨s.names, l, s.outer⟩
  | item {p : Pattern} : Step s (.item p) ⟨s.names, s.level.push p, s.outer⟩

variable {s t : Reading} {k : Construct} {l : Level}

theorem take?_eq_some_iff : s.take? k = some t ↔ s.Step k t := by
  constructor
  · intro h
    cases k with
    | openGroup name =>
      cases name with
      | none =>
        obtain rfl := Option.some.inj h
        exact .openGroup fun n hn => nomatch hn
      | some n =>
        simp only [take?, openGroup?] at h
        split at h
        · cases h
        · rename_i hn
          obtain rfl := Option.some.inj h
          exact .openGroup fun m hm => Option.some.inj hm ▸ hn
    | closeGroup =>
      simp only [take?, closeGroup?] at h
      split at h
      · cases h
      · rename_i l ls houter
        obtain rfl := Option.some.inj h
        exact .closeGroup houter
    | bar =>
      obtain rfl := Option.some.inj h
      exact .bar
    | times low high =>
      obtain ⟨l, hl, rfl⟩ := Option.map_eq_some_iff.mp h
      exact .times hl
    | item p =>
      obtain rfl := Option.some.inj h
      exact .item
  · intro h
    cases h with
    | @openGroup name fresh =>
      cases name with
      | none => rfl
      | some n => exact if_neg (fresh n rfl)
    | closeGroup outer_eq => simp only [take?, closeGroup?, outer_eq]
    | bar => rfl
    | times repeats => exact Option.map_eq_some_iff.mpr ⟨_, repeats, rfl⟩
    | item => rfl

/-- the reading `s` in a group that stands in the level `l` -/
def under (s : Reading) (l : Level) : Reading := ⟨s.names, s.level, s.outer ++ [l]⟩

theorem Step.under (h : s.Step k t) : (s.under l).Step k (t.under l) := by
  cases h with
  | openGroup fresh => exact .openGroup fresh
  | closeGroup outer_eq => exact .closeGroup (congrArg (· ++ [l]) outer_eq)
  | bar => exact .bar
  | times repeats => exact .times repeats
  | item => exact .item

theorem take?_under (h : s.take? k = some t) : (s.under l).take? k = some (t.under l) :=
  take?_eq_some_iff.mpr (take?_eq_some_iff.mp h).under

end Reading

/-- a parenthesis brings up no question mark -/
theorem head?_of_closed {r rest : List Char} (h : (r ++ ')' :: rest).head? = some '?') :
    r.head? = some '?' := by
  cases r with
  | nil => exact absurd (Option.some.inj h) (by decide)
  | cons x r => exact h

namespace Reads

variable {s t : Reading} {k : Construct} {cs r : List Char} {p q : Pattern}

/-- what is read by itself is an item of the level around it, when its group is closed -/
theorem inside (h : Reads s cs p) : ∃ names, ∀ l rest q, Reads ⟨names, l.push p, []⟩ rest q →
    Reads (s.under l) (cs ++ ')' :: rest) q := by
  induction h with
  | @done s closed =>
    refine ⟨s.names, fun l rest q hrest => .step rfl ?_ hrest⟩
    simp only [Reading.take?, Reading.closeGroup?, Reading.under, closed, List.nil_append]
  | step read take _ ih =>
    obtain ⟨names, hih⟩ := ih
    obtain ⟨pre, rfl, hwritten, _⟩ := Construct.begins_of_read? read
    refine ⟨names, fun l rest q hrest => .step ?_ (Reading.take?_under take) (hih l rest q hrest)⟩
    rw [List.append_assoc]
    exact hwritten.read _ head?_of_closed

end Reads

/-! ## bounds -/

namespace Level

/-- in everything that was read so far the bounds of repetitions are in order -/
def Proper (l : Level) : Prop := (∀ p ∈ l.branches, p.Proper) ∧ ∀ p ∈ l.items, p.Proper

variable {l l' : Level} {p : Pattern}

theorem proper_fresh : fresh.Proper := ⟨fun _ h => (nomatch h), fun _ h => (nomatch h)⟩

theorem proper_sequence {ps : List Pattern} (h : ∀ p ∈ ps, p.Proper) : (sequence ps).Proper := by
  induction ps with
  | nil => trivial
  | cons p ps ih =>
    obtain ⟨hp, hps⟩ := List.forall_mem_cons.mp h
    cases ps with
    | nil => exact hp
    | cons q qs => exact ⟨hp, ih hps⟩

theorem proper_alternation {ps : List Pattern} (hp : p.Proper) (hps : ∀ q ∈ ps, q.Proper) :
    (alternation p ps).Proper := by
  induction ps generalizing p with
  | nil => exact hp
  | cons q qs ih =>
    obtain ⟨hq, hqs⟩ := List.forall_mem_cons.mp hps
    exact ⟨hp, ih hq hqs⟩

theorem Proper.branch (h : l.Proper) : l.branch.Proper :=
  proper_sequence fun p hp => h.2 p (List.mem_reverse.mp hp)

theorem Proper.close (h : l.Proper) : l.close.Proper := by
  have hall : ∀ p ∈ (l.branch :: l.branches).reverse, p.Proper := fun p hp =>
    List.forall_mem_cons.mpr ⟨h.branch, h.1⟩ p (List.mem_reverse.mp hp)
  unfold Level.close
  split
  · trivial
  · rename_i p ps heq
    rw [heq] at hall
    obtain ⟨hp, hps⟩ := List.forall_mem_cons.mp hall
    exact proper_alternation hp hps

theorem Proper.push (h : l.Proper) (hp : p.Proper) : (l.push p).Proper :=
  ⟨h.1, List.forall_mem_cons.mpr ⟨hp, h.2⟩⟩

theorem Proper.nextBranch (h : l.Proper) : l.nextBranch.Proper :=
  ⟨List.forall_mem_cons.mpr ⟨h.branch, h.1⟩, fun _ h => nomatch h⟩

theorem Proper.repeatLast? {low : Nat} {high : Option Nat} (h : l.Proper)
    (hbounds : ∀ n ∈ high, low ≤ n) (hl : l.repeatLast? low high = some l') : l'.Proper := by
  unfold Level.repeatLast? at hl
  split at hl
  · cases hl
  · rename_i p ps hitems
    obtain rfl := Option.some.inj hl
    obtain ⟨hp, hps⟩ := List.forall_mem_cons.mp (hitems ▸ h.2)
    exact ⟨h.1, List.forall_mem_cons.mpr ⟨⟨hp, hbounds⟩, hps⟩⟩

end Level

namespace Reading

def Proper (s : Reading) : Prop := s.level.Proper ∧ ∀ l ∈ s.outer, l.Proper

variable {s t : Reading} {k : Construct}

theorem Proper.step (h : s.Proper) (hk : k.Proper) (ht : s.Step k t) : t.Proper := by
  cases ht with
  | openGroup => exact ⟨Level.proper_fresh, List.forall_mem_cons.mpr h⟩
  | closeGroup outer_eq =>
    obtain ⟨hl, hls⟩ := List.forall_mem_cons.mp (outer_eq ▸ h.2)
    exact ⟨hl.push h.1.close, hls⟩
  | bar => exact ⟨h.1.nextBranch, h.2⟩
  | times repeats => exact ⟨h.1.repeatLast? hk repeats, h.2⟩
  | item => exact ⟨h.1.push hk, h.2⟩

end Reading

theorem Reads.proper {s : Reading} {cs : List Char} {p : Pattern} (h : Reads s cs p)
    (hs : s.Proper) : p.Proper := by
  induction h with
  | done => exact hs.1.close
  | step read take _ ih =>
    obtain ⟨_, _, _, hk⟩ := Construct.begins_of_read? read
    exact ih (hs.step hk (Reading.take?_eq_some_iff.mp take))

theorem proper_of_read? {cs : List Char} {p : Pattern} (h : read? cs = some p) : p.Proper :=
  (read?_eq_some_iff.mp h).proper ⟨Level.proper_fresh, fun _ h => nomatch h⟩

end SpanishSyntax.Lexicon.Pattern
