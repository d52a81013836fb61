/-!
# Iteration to a fixed point

`settle f n x` applies `f` until nothing changes, at most `n` times.  When every application
that changes something makes a bounded measure larger, the bound is enough rounds and the
result is a fixed point (`settle_fixed`).
-/

namespace SpanishSyntax

variable {α : Type} [DecidableEq α]

def settle (f : α → α) : Nat → α → α
  | 0, x => x
  | n + 1, x => if f x = x then x else settle f n (f x)

/-- what one application keeps, the iteration keeps -/
theorem settle_invariant {f : α → α} {P : α → Prop} (hf : ∀ x, P x → P (f x)) (n : Nat) :
    ∀ {x : α}, P x → P (settle f n x) := by
  induction n with
  | zero => exact fun h => h
  | succ n ih =>
    intro x h
    unfold settle
    split
    · exact h
    · exact ih (hf x h)

/-- a measure that grows with every change and stays within `b` leaves no change for round `b` -/
theorem settle_fixed {f : α → α} {P : α → Prop} (hf : ∀ x, P x → P (f x)) {size : α → Nat}
    {b : Nat} (grows : ∀ x, P x → f x ≠ x → size x < size (f x))
    (bounded : ∀ x, P x → size x ≤ b) (n : Nat) :
    ∀ {x : α}, P x → b ≤ size x + n → f (settle f n x) = settle f n x := by
  induction n with
  | zero =>
    intro x h hb
    refine Classical.byContradiction fun hne => ?_
    have h1 := grows x h hne
    have h2 := bounded (f x) (hf x h)
    omega
  | succ n ih =>
    intro x h hb
    unfold settle
    split
    · assumption
    · rename_i hne
      have := grows x h hne
      exact ih (hf x h) (by omega)

end SpanishSyntax
