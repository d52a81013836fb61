/-!
# Ascending lists

A finite set over an order is kept as a list that ascends without repetition, so equal sets
are equal lists and the order in which a set is shown is the order of the list.
-/

namespace SpanishSyntax.Ascending

variable {α : Type} [LT α] [DecidableLT α] [DecidableEq α]

def insert (a : α) : List α → List α
  | [] => [a]
  | b :: l =>
    if a = b then b :: l
    else if a < b then a :: b :: l
    else b :: insert a l

def union (l m : List α) : List α := m.foldl (fun s a => insert a s) l

def ofList (l : List α) : List α := union [] l

/-! ## membership -/

theorem mem_insert {a x : α} {l : List α} : x ∈ insert a l ↔ x = a ∨ x ∈ l := by
  induction l with
  | nil => simp [insert]
  | cons b l ih =>
    unfold insert
    split
    · rename_i h
      subst h
      simp
    · split
      · simp
      · simp only [List.mem_cons, ih]
        exact or_left_comm

theorem mem_union {x : α} {l m : List α} : x ∈ union l m ↔ x ∈ l ∨ x ∈ m := by
  unfold union
  induction m generalizing l with
  | nil => simp
  | cons a m ih =>
    rw [List.foldl_cons, ih, mem_insert, List.mem_cons]
    exact Iff.intro
      (fun h => h.elim (fun h => h.elim (fun h => .inr (.inl h)) .inl) fun h => .inr (.inr h))
      (fun h => h.elim (fun h => .inl (.inr h))
        fun h => h.elim (fun h => .inl (.inl h)) .inr)

theorem mem_ofList {x : α} {l : List α} : x ∈ ofList l ↔ x ∈ l := by
  simp [ofList, mem_union]

end SpanishSyntax.Ascending
