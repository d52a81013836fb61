import SpanishSyntax.Entries
import SpanishSyntax.Proofs.Ascending

/-!
# Maps as tables of entries: what a change of one entry does

* `Entries.get?_put_self`    the key that is put gets what the function makes of its old value;
* `Entries.mem_iff`          in an ordered map the entries are what can be looked up;
* `Entries.eq_map_keys`      an ordered map is its keys, each with its value.
-/

namespace SpanishSyntax.Entries

variable {κ β : Type} [LT κ] [DecidableEq κ] [IsStrictTotalOrder κ (· < ·)]

def Ordered (m : Entries κ β) : Prop := Ascending.Ascends m.keys

omit [DecidableEq κ] [IsStrictTotalOrder κ (· < ·)] in
theorem ordered_nil : Ordered ([] : Entries κ β) := Ascending.ascends_nil

theorem Ordered.mem_iff {m : Entries κ β} (h : Ordered m) {k : κ} {v : β} :
    (k, v) ∈ m ↔ m.get? k = some v := by
  unfold get?
  constructor
  · intro hmem
    rw [(Ascending.find?_key_iff h).mpr ⟨hmem, rfl⟩]
    rfl
  · intro hget
    obtain ⟨⟨l, w⟩, hentry, rfl⟩ := Option.map_eq_some_iff.mp hget
    obtain rfl : l = k := by simpa using List.find?_some hentry
    exact List.mem_of_find?_eq_some hentry

theorem Ordered.ext {m n : Entries κ β} (hm : Ordered m) (hn : Ordered n)
    (h : ∀ k, m.get? k = n.get? k) : m = n := by
  refine Ascending.eq_of_keys hm hn ?_
  rintro ⟨k, v⟩
  rw [hm.mem_iff, hn.mem_iff, h]

omit [LT κ] [IsStrictTotalOrder κ (· < ·)] in
theorem get?_eq_none_iff {m : Entries κ β} {k : κ} : m.get? k = none ↔ k ∉ m.keys := by
  unfold get? keys
  rw [Option.map_eq_none_iff, List.find?_eq_none, List.mem_map]
  constructor
  · rintro h ⟨e, he, hk⟩
    exact h e he (decide_eq_true hk)
  · exact fun h e he hk => h ⟨e, he, of_decide_eq_true hk⟩

/-- an ordered map is its keys, each with what is found under it -/
theorem Ordered.eq_map_keys {m : Entries κ β} (h : Ordered m) (other : β) :
    m = m.keys.map fun k => (k, (m.get? k).getD other) := by
  rw [keys, List.map_map]
  conv_lhs => rw [← List.map_id m]
  refine List.map_congr_left fun e he => ?_
  obtain ⟨k, v⟩ := e
  have hget : m.get? k = some v := h.mem_iff.mp he
  simp only [Function.comp_apply, hget, Option.getD_some, id_eq]

variable [DecidableLT κ]

theorem Ordered.put {m : Entries κ β} (h : Ordered m) (k : κ) (f : Option β → β) :
    Ordered (put k f m) := by
  rw [Ordered, keys_put]
  exact Ascending.ascends_insert h

theorem Ordered.get?_put_self {m : Entries κ β} (h : Ordered m) (k : κ) (f : Option β → β) :
    (Entries.put k f m).get? k = some (f (m.get? k)) := by
  induction m with
  | nil => rw [Entries.put, get?_cons, if_pos rfl, get?_nil]
  | cons e m ih =>
    obtain ⟨l, v⟩ := e
    obtain ⟨hl, hm⟩ := List.pairwise_cons.mp h
    have ih := ih hm
    rw [Entries.put, get?_cons]
    split
    · rename_i hkl
      rw [get?_cons, if_pos hkl.symm, if_pos hkl.symm]
    · rename_i hkl
      rw [if_neg (Ne.symm hkl)]
      split
      · rename_i hlt
        -- everything behind `l` is above it, so `k` is not there
        have hnone : get? m k = none := get?_eq_none_iff.mpr fun hk =>
          irrefl_of (· < ·) k (trans_of (· < ·) hlt (hl k hk))
        rw [get?_cons, if_pos rfl, hnone]
      · rw [get?_cons, if_neg (Ne.symm hkl), ih]

theorem Ordered.get?_put {m : Entries κ β} (h : Ordered m) (k l : κ) (f : Option β → β) :
    (Entries.put k f m).get? l = if l = k then some (f (m.get? k)) else m.get? l := by
  by_cases hlk : l = k
  · rw [if_pos hlk, hlk, h.get?_put_self]
  · rw [if_neg hlk, get?_put_of_ne hlk]

end SpanishSyntax.Entries
