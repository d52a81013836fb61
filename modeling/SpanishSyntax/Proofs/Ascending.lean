import Mathlib.Order.RelClasses
import Mathlib.Data.List.Nodup
import Mathlib.Data.List.Sort
import SpanishSyntax.Ascending
import SpanishSyntax.Proofs.Fixpoint

/-!
# Ascending lists: what an insertion adds

* `insert_of_mem`     inserting an element of an ascending list changes nothing;
* `ascends_union`     a union of an ascending list with anything ascends;
* `union_grows`       a union changes nothing or makes the list longer;
* `length_le`         an ascending list is no longer than a list that holds its elements;
* `eq_of_keys`        tables with ascending keys are equal if they have the same entries;
* `find?_key_iff`     such a table has one entry at most under a key.
-/

namespace SpanishSyntax.Ascending

section
variable {α : Type} [LT α]

def Ascends (l : List α) : Prop := l.Pairwise (· < ·)

theorem ascends_nil : Ascends ([] : List α) := List.Pairwise.nil

variable [IsStrictTotalOrder α (· < ·)]

theorem nodup_of_ascends {l : List α} (h : Ascends l) : l.Nodup := by
  refine List.Pairwise.imp (fun {a b} hab => ?_) h
  rintro rfl
  exact irrefl_of (· < ·) a hab

theorem length_le {l m : List α} (h : Ascends l) (hm : l ⊆ m) : l.length ≤ m.length :=
  (nodup_of_ascends h).length_le_of_subset hm

end

variable {α : Type} [LT α] [DecidableLT α] [DecidableEq α]

theorem length_insert_of_notMem {a : α} {l : List α} (h : a ∉ l) :
    (insert a l).length = l.length + 1 := by
  induction l with
  | nil => rfl
  | cons b l ih =>
    have hne : a ≠ b := fun e => h (e ▸ List.mem_cons_self)
    have hl : a ∉ l := fun m => h (List.mem_cons_of_mem _ m)
    unfold insert
    rw [if_neg hne]
    split
    · rfl
    · rw [List.length_cons, ih hl, List.length_cons]

section
variable [IsStrictTotalOrder α (· < ·)]

theorem ascends_insert {a : α} {l : List α} (h : Ascends l) : Ascends (insert a l) := by
  induction l with
  | nil => exact List.pairwise_singleton _ a
  | cons b l ih =>
    obtain ⟨hb, hl⟩ := List.pairwise_cons.mp h
    unfold insert
    split
    · exact h
    · rename_i hne
      split
      · rename_i hlt
        refine List.pairwise_cons.mpr ⟨fun c hc => ?_, h⟩
        rcases List.mem_cons.mp hc with rfl | hc
        · exact hlt
        · exact trans_of (· < ·) hlt (hb c hc)
      · rename_i hnlt
        have hba : b < a := (trichotomous_of (· < ·) a b).resolve_left hnlt |>.resolve_left hne
        refine List.pairwise_cons.mpr ⟨fun c hc => ?_, ih hl⟩
        rcases mem_insert.mp hc with rfl | hc
        · exact hba
        · exact hb c hc

theorem insert_of_mem {a : α} {l : List α} (h : Ascends l) (ha : a ∈ l) : insert a l = l := by
  induction l with
  | nil => cases ha
  | cons b l ih =>
    obtain ⟨hb, hl⟩ := List.pairwise_cons.mp h
    unfold insert
    split
    · rfl
    · rename_i hne
      have hal : a ∈ l := (List.mem_cons.mp ha).resolve_left hne
      -- everything behind `b` is above it, so `a` cannot stand before `b`
      rw [if_neg (fun hab => irrefl_of (· < ·) a (trans_of (· < ·) hab (hb a hal))), ih hl hal]

theorem inflates_insert (a : α) : Inflates Ascends List.length (insert a) where
  keeps _ h := ascends_insert h
  grows l h := by
    by_cases ha : a ∈ l
    · exact .inl (insert_of_mem h ha)
    · right
      rw [length_insert_of_notMem ha]
      omega

theorem inflates_union (m : List α) : Inflates Ascends List.length (fun l => union l m) :=
  Inflates.foldl fun a _ => inflates_insert a

theorem ascends_union {l m : List α} (h : Ascends l) : Ascends (union l m) :=
  (inflates_union m).keeps l h

theorem union_grows {l : List α} (h : Ascends l) (m : List α) :
    union l m = l ∨ l.length < (union l m).length :=
  (inflates_union m).grows l h

theorem ascends_ofList (l : List α) : Ascends (ofList l) := ascends_union ascends_nil

end

/-! ## tables whose keys ascend -/

section
variable {κ β : Type} [LT κ] [IsStrictTotalOrder κ (· < ·)] {key : β → κ}

theorem eq_of_keys {l m : List β} (hl : Ascends (l.map key)) (hm : Ascends (m.map key))
    (h : ∀ x, x ∈ l ↔ x ∈ m) : l = m := by
  have hasymm : ∀ x y : β, key x < key y → ¬ key y < key x := fun x y hxy hyx =>
    irrefl_of (· < ·) (key x) (trans_of (· < ·) hxy hyx)
  have : Std.Irrefl fun x y : β => key x < key y := ⟨fun x hx => hasymm x x hx hx⟩
  have : Std.Antisymm fun x y : β => key x < key y := ⟨fun x y hxy hyx => (hasymm x y hxy hyx).elim⟩
  exact List.Pairwise.eq_of_mem_iff (List.pairwise_map.mp hl) (List.pairwise_map.mp hm) h

theorem eq_of_mem_iff {l m : List κ} (hl : Ascends l) (hm : Ascends m) (h : ∀ x, x ∈ l ↔ x ∈ m) :
    l = m := by
  rw [← List.map_id l] at hl
  rw [← List.map_id m] at hm
  exact eq_of_keys hl hm h

/-- what brings nothing can be left out of a pass -/
theorem flatMap_eq_of_subset [DecidableEq κ] {l m : List κ} (hl : Ascends l) (hm : Ascends m)
    (hsub : l ⊆ m) {β : Type} {f : κ → List β} (hf : ∀ x, x ∉ l → f x = []) :
    l.flatMap f = m.flatMap f := by
  have hfilter : l = m.filter (· ∈ l) := by
    refine eq_of_mem_iff hl (hm.sublist List.filter_sublist) fun x => ?_
    rw [List.mem_filter, decide_eq_true_iff]
    exact ⟨fun hx => ⟨hsub hx, hx⟩, fun hx => hx.2⟩
  have hpass : ∀ n : List κ, (n.filter (· ∈ l)).flatMap f = n.flatMap f := by
    intro n
    induction n with
    | nil => rfl
    | cons x n ih =>
      rw [List.filter_cons, List.flatMap_cons]
      by_cases hx : x ∈ l
      · rw [if_pos (decide_eq_true hx), List.flatMap_cons, ih]
      · rw [if_neg (by simpa using hx), ih, hf x hx, List.nil_append]
  rw [← hpass m, ← hfilter]

theorem find?_key_iff [DecidableEq κ] {l : List β} (h : Ascends (l.map key)) {k : κ} {x : β} :
    l.find? (fun y => key y = k) = some x ↔ x ∈ l ∧ key x = k := by
  constructor
  · intro hfind
    exact ⟨List.mem_of_find?_eq_some hfind, by simpa using List.find?_some hfind⟩
  · rintro ⟨hx, rfl⟩
    obtain ⟨y, hy⟩ : ∃ y, l.find? (fun y => key y = key x) = some y := by
      refine Option.isSome_iff_exists.mp (List.find?_isSome.mpr ⟨x, hx, ?_⟩)
      exact decide_eq_true rfl
    have hkey : key y = key x := by simpa using List.find?_some hy
    have hyx : y = x :=
      List.inj_on_of_nodup_map (nodup_of_ascends h) (List.mem_of_find?_eq_some hy) hx hkey
    rw [hy, hyx]

end

end SpanishSyntax.Ascending
