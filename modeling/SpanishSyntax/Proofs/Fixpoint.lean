import SpanishSyntax.Fixpoint

/-!
# Functions that only make things larger

A round of a fixed-point iteration is a fold of many small changes.  `Inflates P size f` says
that `f` keeps the invariant `P` and, where it holds, changes nothing or makes the measure
larger.  Then a round that changes nothing consists of changes that change nothing
(`Inflates.fixed_foldl`), and a bounded measure makes the iteration end at a fixed point
(`Inflates.settle_fixed`).
-/

namespace SpanishSyntax

structure Inflates {α : Type} (P : α → Prop) (size : α → Nat) (f : α → α) : Prop where
  keeps : ∀ x, P x → P (f x)
  grows : ∀ x, P x → f x = x ∨ size x < size (f x)

namespace Inflates

variable {α β : Type} {P : α → Prop} {size : α → Nat} {f g : α → α}

theorem refl : Inflates P size (fun x => x) := ⟨fun _ h => h, fun _ _ => .inl rfl⟩

theorem le (hf : Inflates P size f) {x : α} (h : P x) : size x ≤ size (f x) := by
  rcases hf.grows x h with e | hlt
  · exact Nat.le_of_eq (congrArg size e.symm)
  · exact Nat.le_of_lt hlt

theorem comp (hf : Inflates P size f) (hg : Inflates P size g) :
    Inflates P size (fun x => g (f x)) where
  keeps x h := hg.keeps _ (hf.keeps x h)
  grows x h := by
    have hfx := hf.keeps x h
    rcases hf.grows x h with e | hlt
    · show g (f x) = x ∨ size x < size (g (f x))
      rw [e]
      exact hg.grows x h
    · exact .inr (Nat.lt_of_lt_of_le hlt (hg.le hfx))

/-- what two changes leave alone together, each leaves alone -/
theorem fixed_comp (hf : Inflates P size f) (hg : Inflates P size g) {x : α} (h : P x)
    (e : g (f x) = x) : f x = x ∧ g x = x := by
  have hfx : f x = x := by
    rcases hf.grows x h with e' | hlt
    · exact e'
    · have := hg.le (hf.keeps x h)
      rw [e] at this
      omega
  exact ⟨hfx, by rwa [hfx] at e⟩

theorem foldl {f : α → β → α} {l : List β}
    (hf : ∀ b ∈ l, Inflates P size (fun x => f x b)) :
    Inflates P size (fun x => l.foldl f x) := by
  induction l with
  | nil => exact Inflates.refl
  | cons b l ih =>
    have h1 := hf b List.mem_cons_self
    have h2 := ih fun c hc => hf c (List.mem_cons_of_mem _ hc)
    exact h1.comp h2

theorem fixed_foldl {f : α → β → α} {l : List β}
    (hf : ∀ b ∈ l, Inflates P size (fun x => f x b)) {x : α} (h : P x)
    (e : l.foldl f x = x) : ∀ b ∈ l, f x b = x := by
  induction l with
  | nil => exact fun _ hb => nomatch hb
  | cons b l ih =>
    have h1 := hf b List.mem_cons_self
    have h2 : ∀ c ∈ l, Inflates P size (fun x => f x c) :=
      fun c hc => hf c (List.mem_cons_of_mem _ hc)
    obtain ⟨hb, hl⟩ := h1.fixed_comp (foldl h2) h e
    intro c hc
    rcases List.mem_cons.mp hc with rfl | hc
    · exact hb
    · exact ih h2 hl c hc

variable [DecidableEq α]

theorem settle (hf : Inflates P size f) (n : Nat) {x : α} (h : P x) :
    P (SpanishSyntax.settle f n x) :=
  settle_invariant hf.keeps n h

/-- more rounds than the measure can grow end at a fixed point -/
theorem settle_fixed (hf : Inflates P size f) {b : Nat} (bounded : ∀ x, P x → size x ≤ b)
    {n : Nat} (hn : b ≤ n) {x : α} (h : P x) :
    f (SpanishSyntax.settle f n x) = SpanishSyntax.settle f n x :=
  SpanishSyntax.settle_fixed hf.keeps
    (fun y hy hne => (hf.grows y hy).resolve_left hne) bounded n h (by omega)

end Inflates

end SpanishSyntax
