import SpanishSyntax.Ascending

/-!
# Maps as tables of entries

A map is kept as the list of its entries in the order of their keys.  `Entries.put` is the one way
to change it: a key that is there keeps its place, and a new one is put where it belongs, so the
keys of a map that grew entry by entry ascend (`Entries.keys_put`).
-/

namespace SpanishSyntax

abbrev Entries (κ β : Type) := List (κ × β)

namespace Entries

variable {κ β : Type} [LT κ] [DecidableLT κ] [DecidableEq κ]

def keys (m : Entries κ β) : List κ := m.map (·.1)

def get? (m : Entries κ β) (k : κ) : Option β := (m.find? (·.1 = k)).map (·.2)

/-- the entry under the key becomes what `f` makes of it, or of its absence -/
def put (k : κ) (f : Option β → β) : Entries κ β → Entries κ β
  | [] => [(k, f none)]
  | (l, v) :: m =>
    if k = l then (l, f (some v)) :: m
    else if k < l then (k, f none) :: (l, v) :: m
    else (l, v) :: put k f m

omit [LT κ] [DecidableLT κ] [DecidableEq κ] in
theorem keys_cons (e : κ × β) (m : Entries κ β) : keys (e :: m) = e.1 :: keys m := rfl

omit [LT κ] [DecidableLT κ] in
theorem get?_nil (k : κ) : get? ([] : Entries κ β) k = none := rfl

omit [LT κ] [DecidableLT κ] in
theorem get?_cons (e : κ × β) (m : Entries κ β) (k : κ) :
    get? (e :: m) k = if e.1 = k then some e.2 else get? m k := by
  unfold get?
  rw [List.find?_cons]
  by_cases h : e.1 = k <;> simp [h]

/-- a map grows as the set of its keys does -/
theorem keys_put (k : κ) (f : Option β → β) (m : Entries κ β) :
    (put k f m).keys = Ascending.insert k m.keys := by
  induction m with
  | nil => rfl
  | cons e m ih =>
    obtain ⟨l, v⟩ := e
    rw [keys_cons, put, Ascending.insert]
    split
    · rfl
    · split
      · rfl
      · rw [keys_cons, ih]

theorem get?_put_of_ne {k l : κ} (h : l ≠ k) (f : Option β → β) (m : Entries κ β) :
    (put k f m).get? l = m.get? l := by
  induction m with
  | nil => rw [put, get?_cons, if_neg (Ne.symm h)]
  | cons e m ih =>
    obtain ⟨j, v⟩ := e
    rw [put]
    split
    · rename_i hkj
      rw [get?_cons, get?_cons, if_neg (hkj ▸ Ne.symm h), if_neg (hkj ▸ Ne.symm h)]
    · split
      · rw [get?_cons, if_neg (Ne.symm h)]
      · rw [get?_cons, get?_cons, ih]

end Entries

end SpanishSyntax
