import Mathlib.Logic.Function.Iterate
import SpanishSyntax.Lexicon.Pattern.Basic

/-!
# What a pattern matches

`Pattern.Matches p c d` says that `p` can be read from the cursor `c` to the cursor `d`, construct
by construct, a repetition being any number of readings within its bounds.  `Pattern.reach` lists
exactly those `d` (`mem_reach_iff`), although it repeats without an upper bound only as often as
there are characters ahead: a reading that moves on leaves fewer of them, and one that does not can
be left out (`Repeats.shorten`).  A pattern occurs in a text if it matches from some cursor on
(`occursIn_iff`).
-/

namespace SpanishSyntax.Lexicon

namespace Cursor

/-- `d` lies ahead of `c` in the same text, or is `c` -/
def Advances (c d : Cursor) : Prop :=
  ∃ read, c.after = read ++ d.after ∧ d.before = read.reverse ++ c.before

namespace Advances

variable {c d e : Cursor}

theorem refl (c : Cursor) : c.Advances c := ⟨[], rfl, rfl⟩

theorem trans (h : c.Advances d) (h' : d.Advances e) : c.Advances e := by
  obtain ⟨r, hafter, hbefore⟩ := h
  obtain ⟨r', hafter', hbefore'⟩ := h'
  refine ⟨r ++ r', ?_, ?_⟩
  · rw [hafter, hafter', List.append_assoc]
  · rw [hbefore', hbefore, List.reverse_append, List.append_assoc]

theorem eq_or_shorter (h : c.Advances d) : d = c ∨ d.after.length < c.after.length := by
  obtain ⟨r, hafter, hbefore⟩ := h
  cases r with
  | nil => exact .inl (by cases c; cases d; simp_all)
  | cons x r =>
    right
    rw [hafter, List.length_append, List.length_cons]
    omega

theorem length_le (h : c.Advances d) : d.after.length ≤ c.after.length := by
  rcases h.eq_or_shorter with rfl | hlt
  · exact Nat.le_refl _
  · exact Nat.le_of_lt hlt

end Advances

end Cursor

/-! ## repetitions -/

/-- from the first cursor to the second in `n` steps of `R` -/
inductive Repeats (R : Cursor → Cursor → Prop) : Nat → Cursor → Cursor → Prop where
  | none (c : Cursor) : Repeats R 0 c c
  | more {n : Nat} {c d e : Cursor} (head : R c d) (tail : Repeats R n d e) : Repeats R (n + 1) c e

namespace Repeats

variable {R : Cursor → Cursor → Prop} {m n : Nat} {c d e : Cursor}

theorem zero_iff : Repeats R 0 c d ↔ d = c := by
  constructor
  · intro h
    cases h
    rfl
  · rintro rfl
    exact .none _

theorem succ_iff : Repeats R (n + 1) c e ↔ ∃ d, R c d ∧ Repeats R n d e := by
  constructor
  · intro h
    cases h with
    | more head tail => exact ⟨_, head, tail⟩
  · rintro ⟨d, head, tail⟩
    exact .more head tail

theorem add_iff : Repeats R (m + n) c e ↔ ∃ d, Repeats R m c d ∧ Repeats R n d e := by
  induction m generalizing c with
  | zero => simp [zero_iff]
  | succ m ih =>
    rw [Nat.succ_add, succ_iff]
    simp only [ih, succ_iff]
    constructor
    · rintro ⟨x, hx, d, hd, he⟩
      exact ⟨d, ⟨x, hx, hd⟩, he⟩
    · rintro ⟨d, ⟨x, hx, hd⟩, he⟩
      exact ⟨x, hx, d, hd, he⟩

theorem advances (hR : ∀ c d, R c d → c.Advances d) (h : Repeats R n c d) : c.Advances d := by
  induction h with
  | none c => exact .refl c
  | more head _ ih => exact (hR _ _ head).trans ih

/-- steps that stay where they are can be left out -/
theorem shorten (hR : ∀ c d, R c d → c.Advances d) (h : Repeats R n c d) :
    ∃ k ≤ c.after.length - d.after.length, Repeats R k c d := by
  induction h with
  | none c => exact ⟨0, Nat.zero_le _, .none c⟩
  | more head tail ih =>
    obtain ⟨k, hk, hrest⟩ := ih
    rcases (hR _ _ head).eq_or_shorter with rfl | hlt
    · exact ⟨k, hk, hrest⟩
    · have hend := (tail.advances hR).length_le
      exact ⟨k + 1, by omega, .more head hrest⟩

end Repeats

namespace Pattern

/-! ## matches -/

def Matches : Pattern → Cursor → Cursor → Prop
  | empty, c, d => d = c
  | one k, c, d => ∃ x r, c.after = x :: r ∧ k.contains x = true ∧ d = ⟨x :: c.before, r⟩
  | anchor a, c, d => a.holds c = true ∧ d = c
  | seq p q, c, d => ∃ m, p.Matches c m ∧ q.Matches m d
  | alt p q, c, d => p.Matches c d ∨ q.Matches c d
  | times p low high, c, d => ∃ n, low ≤ n ∧ (∀ h ∈ high, n ≤ h) ∧ Repeats p.Matches n c d

/-- no repetition has a lower bound above its upper one -/
def Proper : Pattern → Prop
  | empty | one _ | anchor _ => True
  | seq p q | alt p q => p.Proper ∧ q.Proper
  | times p low high => p.Proper ∧ ∀ h ∈ high, low ≤ h

theorem Matches.advances {p : Pattern} {c d : Cursor} (h : p.Matches c d) : c.Advances d := by
  induction p generalizing c d with
  | empty =>
    obtain rfl := h
    exact .refl _
  | one k =>
    obtain ⟨x, r, hafter, _, rfl⟩ := h
    exact ⟨[x], hafter, rfl⟩
  | anchor a =>
    obtain ⟨_, rfl⟩ := h
    exact .refl _
  | seq p q hp hq =>
    obtain ⟨m, hm, hd⟩ := h
    exact (hp hm).trans (hq hd)
  | alt p q hp hq => exact h.elim hp hq
  | times p low high hp =>
    obtain ⟨n, _, _, hrepeat⟩ := h
    exact hrepeat.advances fun _ _ hstep => hp hstep

/-! ## the cursors that are reached -/

section

variable {f : Cursor → List Cursor} {R : Cursor → Cursor → Prop}

theorem settle_eq_iterate {α : Type} [DecidableEq α] (g : α → α) (n : Nat) (x : α) :
    settle g n x = Nat.iterate g n x := by
  induction n generalizing x with
  | zero => rfl
  | succ n ih =>
    unfold settle
    split
    · rename_i hfixed
      exact (Function.iterate_fixed hfixed (n + 1)).symm
    · exact ih (g x)

theorem mem_spread_iff (hf : ∀ c d, d ∈ f c ↔ R c d) {cs : List Cursor} {d : Cursor} :
    d ∈ spread f cs ↔ ∃ c ∈ cs, R c d := by
  rw [spread, List.mem_eraseDups, List.mem_flatMap]
  simp only [hf]

theorem mem_settle_spread_iff (hf : ∀ c d, d ∈ f c ↔ R c d) {n : Nat} {cs : List Cursor}
    {d : Cursor} : d ∈ settle (spread f) n cs ↔ ∃ c ∈ cs, Repeats R n c d := by
  rw [settle_eq_iterate]
  induction n generalizing cs with
  | zero => simp [Repeats.zero_iff]
  | succ n ih =>
    rw [Function.iterate_succ_apply, ih]
    simp only [mem_spread_iff hf, Repeats.succ_iff]
    constructor
    · rintro ⟨m, ⟨c, hc, hm⟩, hd⟩
      exact ⟨c, hc, m, hm, hd⟩
    · rintro ⟨c, hc, m, hm, hd⟩
      exact ⟨m, ⟨c, hc, hm⟩, hd⟩

theorem mem_settle_widen_iff (hf : ∀ c d, d ∈ f c ↔ R c d) {n : Nat} {cs : List Cursor}
    {d : Cursor} : d ∈ settle (widen f) n cs ↔ ∃ c ∈ cs, ∃ k ≤ n, Repeats R k c d := by
  rw [settle_eq_iterate]
  induction n generalizing cs with
  | zero => simp [Repeats.zero_iff]
  | succ n ih =>
    have hwiden : ∀ m, m ∈ widen f cs ↔ m ∈ cs ∨ ∃ c ∈ cs, R c m := fun m => by
      rw [widen, List.mem_eraseDups, List.mem_append, List.mem_flatMap]
      simp only [hf]
    rw [Function.iterate_succ_apply, ih]
    constructor
    · rintro ⟨m, hm, k, hk, hd⟩
      rcases (hwiden m).mp hm with hmem | ⟨c, hc, hstep⟩
      · exact ⟨m, hmem, k, by omega, hd⟩
      · exact ⟨c, hc, k + 1, by omega, .more hstep hd⟩
    · rintro ⟨c, hc, k, hk, hd⟩
      cases hd with
      | none => exact ⟨_, (hwiden _).mpr (.inl hc), 0, Nat.zero_le n, .none _⟩
      | more head tail => exact ⟨_, (hwiden _).mpr (.inr ⟨c, hc, head⟩), _, by omega, tail⟩

end

/-- the rounds that are allowed are enough for every number of readings within the bounds -/
theorem exists_rounds_iff {p : Pattern} {low : Nat} {high : Option Nat} {c d : Cursor}
    (hbounds : ∀ h ∈ high, low ≤ h) :
    (∃ m, Repeats p.Matches low c m ∧ ∃ k ≤ extraRounds low high c, Repeats p.Matches k m d) ↔
      (times p low high).Matches c d := by
  have hadvances : ∀ c d, p.Matches c d → c.Advances d := fun _ _ h => h.advances
  constructor
  · rintro ⟨m, hlow, k, hk, hrest⟩
    refine ⟨low + k, Nat.le_add_right _ _, fun h hh => ?_, Repeats.add_iff.mpr ⟨m, hlow, hrest⟩⟩
    obtain rfl := Option.mem_def.mp hh
    have hle := hbounds h rfl
    change k ≤ h - low at hk
    omega
  · rintro ⟨n, hlow, hhigh, hrepeat⟩
    obtain ⟨k, rfl⟩ := Nat.exists_eq_add_of_le hlow
    obtain ⟨m, hm, hd⟩ := Repeats.add_iff.mp hrepeat
    cases high with
    | some h =>
      have hle := hhigh h rfl
      exact ⟨m, hm, k, by show k ≤ h - low; omega, hd⟩
    | none =>
      obtain ⟨k', hk', hd'⟩ := hd.shorten hadvances
      have hle := (hm.advances hadvances).length_le
      exact ⟨m, hm, k', by show k' ≤ c.after.length + 1; omega, hd'⟩

/-- **What is reached is what matches.** -/
theorem mem_reach_iff {p : Pattern} (hp : p.Proper) {c d : Cursor} :
    d ∈ p.reach c ↔ p.Matches c d := by
  induction p generalizing c d with
  | empty => exact List.mem_singleton
  | one k =>
    obtain ⟨before, after⟩ := c
    unfold reach Matches
    cases after with
    | nil => simp
    | cons x r =>
      dsimp only
      split
      · rename_i hk
        rw [List.mem_singleton]
        refine ⟨fun h => ⟨x, r, rfl, hk, h⟩, ?_⟩
        rintro ⟨x', r', hafter, _, rfl⟩
        obtain ⟨rfl, rfl⟩ := List.cons.inj hafter
        rfl
      · rename_i hk
        refine iff_of_false List.not_mem_nil ?_
        rintro ⟨x', r', hafter, hk', _⟩
        obtain ⟨rfl, rfl⟩ := List.cons.inj hafter
        exact hk hk'
  | anchor a =>
    unfold reach Matches
    split
    · rename_i ha
      rw [List.mem_singleton, and_iff_right ha]
    · rename_i ha
      exact iff_of_false List.not_mem_nil fun h => ha h.1
  | seq p q ihp ihq =>
    rw [reach, mem_spread_iff fun _ _ => ihq hp.2]
    simp only [ihp hp.1, Matches]
  | alt p q ihp ihq => rw [reach, List.mem_eraseDups, List.mem_append, ihp hp.1, ihq hp.2, Matches]
  | times p low high ih =>
    have hstep : ∀ c d, d ∈ p.reach c ↔ p.Matches c d := fun _ _ => ih hp.1
    rw [reach, mem_settle_widen_iff hstep, ← exists_rounds_iff hp.2]
    simp only [mem_settle_spread_iff hstep, List.mem_singleton, exists_eq_left]

/-! ## search -/

theorem mem_cursors_iff {before after : List Char} {c : Cursor} :
    c ∈ cursors before after ↔ Cursor.Advances ⟨before, after⟩ c := by
  induction after generalizing before with
  | nil =>
    rw [cursors, List.mem_singleton]
    refine ⟨fun h => h ▸ .refl c, fun h => ?_⟩
    rcases h.eq_or_shorter with rfl | hlt
    · rfl
    · exact absurd hlt (Nat.not_lt_zero _)
  | cons x r ih =>
    rw [cursors, List.mem_cons]
    refine (or_congr_right ih).trans ⟨?_, ?_⟩
    · rintro (h | h)
      · exact h ▸ .refl c
      · exact Cursor.Advances.trans ⟨[x], rfl, rfl⟩ h
    · rintro ⟨read, hafter, hbefore⟩
      cases read with
      | nil => exact .inl (by cases c; simp_all)
      | cons y read =>
        obtain ⟨rfl, hr⟩ := List.cons.inj hafter
        exact .inr ⟨read, hr, by simpa using hbefore⟩

theorem occursIn_iff {p : Pattern} (hp : p.Proper) {text : String} :
    p.occursIn text = true ↔
      ∃ c d, Cursor.Advances ⟨[], text.toList⟩ c ∧ p.Matches c d := by
  have hreach : ∀ c, (!(p.reach c).isEmpty) = true ↔ ∃ d, p.Matches c d := fun c => by
    simp only [← mem_reach_iff hp]
    cases p.reach c <;> simp
  rw [occursIn, List.any_eq_true]
  simp only [mem_cursors_iff, hreach]
  exact ⟨fun ⟨c, hc, d, hd⟩ => ⟨c, d, hc, hd⟩, fun ⟨c, d, hc, hd⟩ => ⟨c, hc, d, hd⟩⟩

end Pattern

end SpanishSyntax.Lexicon
