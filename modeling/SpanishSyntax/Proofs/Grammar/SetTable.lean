import SpanishSyntax.Total

/-!
# Tables with one set for each nonterminal

`FirstTable` and `FollowTable` are both lists of pairs, and both are enlarged by a change of the
sets under one name.  What such a change keeps, and when it changes nothing, is the same for both.
-/

namespace SpanishSyntax.SetTable

variable {σ : Type}

def changeEntry (n : String) (u : σ → σ) (e : String × σ) : String × σ :=
  if e.1 = n then (e.1, u e.2) else e

/-- the sets under the name `n` are changed by `u` -/
def change (n : String) (u : σ → σ) (t : List (String × σ)) : List (String × σ) :=
  t.map (changeEntry n u)

def lookup (t : List (String × σ)) (n : String) : Option σ := (t.find? (·.1 = n)).map (·.2)

theorem changeEntry_self (n : String) (u : σ → σ) (s : σ) : changeEntry n u (n, s) = (n, u s) :=
  if_pos rfl

theorem keys_change (n : String) (u : σ → σ) (t : List (String × σ)) :
    (change n u t).map (·.1) = t.map (·.1) := by
  unfold change
  rw [List.map_map]
  apply List.map_congr_left
  intro e _
  show (changeEntry n u e).1 = e.1
  unfold changeEntry
  split <;> rfl

theorem mem_of_lookup {t : List (String × σ)} {n : String} {s : σ} (h : lookup t n = some s) :
    (n, s) ∈ t := by
  obtain ⟨e, he, rfl⟩ := Option.map_eq_some_iff.mp h
  have hn : e.1 = n := by simpa using List.find?_some he
  rw [← hn]
  exact List.mem_of_find?_eq_some he

theorem exists_lookup {t : List (String × σ)} {n : String} (h : n ∈ t.map (·.1)) :
    ∃ s, lookup t n = some s := by
  obtain ⟨e, he, rfl⟩ := List.mem_map.mp h
  have hs : (t.find? (·.1 = e.1)).isSome = true :=
    List.find?_isSome.mpr ⟨e, he, decide_eq_true rfl⟩
  obtain ⟨e', he'⟩ := Option.isSome_iff_exists.mp hs
  exact ⟨e'.2, by rw [lookup, he']; rfl⟩

theorem forall_change (P : String → σ → Prop) {n : String} {u : σ → σ} {t : List (String × σ)}
    (h : ∀ e ∈ t, P e.1 e.2) (hu : ∀ s, P n s → P n (u s)) :
    ∀ e ∈ change n u t, P e.1 e.2 := by
  intro e he
  obtain ⟨e', he', rfl⟩ := List.mem_map.mp he
  have hp := h e' he'
  unfold changeEntry
  split
  · rename_i hn
    rw [hn] at hp ⊢
    exact hu _ hp
  · exact hp

theorem fixed_of_change {n : String} {u : σ → σ} {t : List (String × σ)}
    (h : change n u t = t) {s : σ} (hs : (n, s) ∈ t) : u s = s := by
  have hmap : t.map (changeEntry n u) = t.map id := h.trans (List.map_id t).symm
  have hns : changeEntry n u (n, s) = (n, s) := List.map_inj_left.mp hmap (n, s) hs
  rw [changeEntry_self] at hns
  exact (Prod.mk.inj hns).2

/-! ## sizes -/

def weight (size : σ → Nat) (t : List (String × σ)) : Nat := total (fun e => size e.2) t

theorem weight_cons (size : σ → Nat) (e : String × σ) (t : List (String × σ)) :
    weight size (e :: t) = size e.2 + weight size t := rfl

theorem changeEntry_grows (size : σ → Nat) (n : String) (u : σ → σ) {e : String × σ}
    (h : u e.2 = e.2 ∨ size e.2 < size (u e.2)) :
    changeEntry n u e = e ∨ size e.2 < size (changeEntry n u e).2 := by
  unfold changeEntry
  split
  · rcases h with hu | hlt
    · exact .inl (by rw [hu])
    · exact .inr hlt
  · exact .inl rfl

theorem change_grows (size : σ → Nat) (n : String) (u : σ → σ) {t : List (String × σ)}
    (h : ∀ e ∈ t, u e.2 = e.2 ∨ size e.2 < size (u e.2)) :
    change n u t = t ∨ weight size t < weight size (change n u t) := by
  induction t with
  | nil => exact .inl rfl
  | cons e t ih =>
    have he := changeEntry_grows size n u (h e List.mem_cons_self)
    have ht := ih fun e' he' => h e' (List.mem_cons_of_mem _ he')
    show changeEntry n u e :: change n u t = e :: t ∨
      weight size (e :: t) < weight size (changeEntry n u e :: change n u t)
    rw [weight_cons, weight_cons]
    rcases he with he | he <;> rcases ht with ht | ht
    · rw [he, ht]
      exact .inl rfl
    · rw [he]
      right
      omega
    · rw [ht]
      right
      omega
    · right
      omega

end SpanishSyntax.SetTable
