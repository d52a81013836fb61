/-!
# Totals

The sum of a measure over the elements of a list.
-/

namespace SpanishSyntax

variable {α β : Type}

def total (size : α → Nat) : List α → Nat
  | [] => 0
  | x :: l => size x + total size l

theorem total_cons (size : α → Nat) (x : α) (l : List α) :
    total size (x :: l) = size x + total size l := rfl

theorem total_append (size : α → Nat) (l r : List α) :
    total size (l ++ r) = total size l + total size r := by
  induction l with
  | nil => exact (Nat.zero_add _).symm
  | cons x l ih =>
    rw [List.cons_append, total_cons, total_cons, ih]
    omega

theorem total_map (size : β → Nat) (f : α → β) (l : List α) :
    total size (l.map f) = total (fun x => size (f x)) l := by
  induction l with
  | nil => rfl
  | cons x l ih => rw [List.map_cons, total_cons, total_cons, ih]

theorem total_const (b : Nat) (l : List α) : total (fun _ => b) l = l.length * b := by
  induction l with
  | nil => exact (Nat.zero_mul b).symm
  | cons x l ih => rw [total_cons, ih, List.length_cons, Nat.succ_mul, Nat.add_comm]

theorem total_of_perm (size : α → Nat) {l r : List α} (h : l.Perm r) :
    total size l = total size r := by
  induction h with
  | nil => rfl
  | cons x _ ih => rw [total_cons, total_cons, ih]
  | swap x y l =>
    show size y + (size x + total size l) = size x + (size y + total size l)
    omega
  | trans _ _ ihl ihr => exact ihl.trans ihr

theorem le_total_of_mem (size : α → Nat) {x : α} {l : List α} (h : x ∈ l) :
    size x ≤ total size l := by
  induction h with
  | head l => exact Nat.le_add_right _ _
  | tail y _ ih => exact Nat.le_trans ih (Nat.le_add_left _ _)

theorem total_le {size : α → Nat} {l : List α} {b : Nat} (h : ∀ x ∈ l, size x ≤ b) :
    total size l ≤ l.length * b := by
  induction l with
  | nil => exact Nat.zero_le _
  | cons x l ih =>
    have hx := h x List.mem_cons_self
    have hl := ih fun y hy => h y (List.mem_cons_of_mem _ hy)
    rw [total_cons, List.length_cons, Nat.succ_mul]
    omega

end SpanishSyntax
