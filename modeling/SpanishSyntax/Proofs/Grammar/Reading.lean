import SpanishSyntax.Proofs.Grammar.Derivation

/-!
# Leftmost derivations read from the left

`Grammar.Reads choice u ps w` goes through a form from the left, reading the tokens `w` and
replacing each nonterminal by the next production of `ps`, as `choice` permits for the tokens
still unread.

* `Grammar.leftmost_iff_reads`       this is a leftmost derivation of the tokens;
* `Grammar.exists_reads_of_derives`  whatever is derived in any order can be read so.
-/

namespace SpanishSyntax.Grammar

inductive Reads (g : Grammar) (choice : List String → Production → Prop) :
    List Symbol → List Production → List String → Prop where
  | nil : Reads g choice [] [] []
  | token {a : String} {u : List Symbol} {ps : List Production} {w : List String}
      (h : Reads g choice u ps w) : Reads g choice (.terminal a :: u) ps (a :: w)
  | expand {p : Production} {u : List Symbol} {ps : List Production} {w : List String}
      (hp : p ∈ g.productions) (ok : choice w p) (h : Reads g choice (p.body ++ u) ps w) :
      Reads g choice (.nonterminal p.head :: u) (p :: ps) w

/-- any production of the right head may be chosen -/
abbrev ReadsFreely (g : Grammar) : List Symbol → List Production → List String → Prop :=
  g.Reads fun _ _ => True

variable {g : Grammar} {choice : List String → Production → Prop}

theorem reads_terminal_iff {a : String} {u : List Symbol} {ps : List Production}
    {w : List String} :
    g.Reads choice (.terminal a :: u) ps w ↔ ∃ w', w = a :: w' ∧ g.Reads choice u ps w' := by
  constructor
  · intro h
    cases h with
    | token h => exact ⟨_, rfl, h⟩
  · rintro ⟨w', rfl, h⟩
    exact .token h

theorem reads_tokens_iff {read : List String} {u : List Symbol} {ps : List Production}
    {w : List String} :
    g.Reads choice (read.map .terminal ++ u) ps w ↔
      ∃ rest, w = read ++ rest ∧ g.Reads choice u ps rest := by
  induction read generalizing w with
  | nil => simp
  | cons a read ih =>
    rw [List.map_cons, List.cons_append, reads_terminal_iff]
    constructor
    · rintro ⟨w', rfl, h⟩
      obtain ⟨rest, rfl, hrest⟩ := ih.mp h
      exact ⟨rest, rfl, hrest⟩
    · rintro ⟨rest, rfl, h⟩
      exact ⟨read ++ rest, rfl, ih.mpr ⟨rest, rfl, h⟩⟩

theorem reads_word (choice : List String → Production → Prop) (w : List String) :
    g.Reads choice (w.map .terminal) [] w := by
  have h : g.Reads choice (w.map .terminal ++ []) [] w :=
    reads_tokens_iff.mpr ⟨[], (List.append_nil w).symm, .nil⟩
  rwa [List.append_nil] at h

theorem ReadsFreely.append {u v : List Symbol} {ps qs : List Production} {w x : List String}
    (h : g.ReadsFreely u ps w) (h' : g.ReadsFreely v qs x) :
    g.ReadsFreely (u ++ v) (ps ++ qs) (w ++ x) := by
  induction h with
  | nil => exact h'
  | token _ ih => exact .token ih
  | expand hp ok _ ih =>
    rw [List.append_assoc] at ih
    exact .expand hp ok ih

/-- the part of a reading that belongs to the front of the form -/
theorem ReadsFreely.split {u v : List Symbol} {ps : List Production} {w : List String}
    (h : g.ReadsFreely (u ++ v) ps w) :
    ∃ ps₁ ps₂ w₁ w₂, ps = ps₁ ++ ps₂ ∧ w = w₁ ++ w₂ ∧
      g.ReadsFreely u ps₁ w₁ ∧ g.ReadsFreely v ps₂ w₂ := by
  generalize hs : u ++ v = s at h
  induction h generalizing u with
  | nil =>
    obtain ⟨rfl, rfl⟩ := List.append_eq_nil_iff.mp hs
    exact ⟨[], [], [], [], rfl, rfl, .nil, .nil⟩
  | @token a s ps w h ih =>
    cases u with
    | nil =>
      obtain rfl : v = .terminal a :: s := hs
      exact ⟨[], ps, [], a :: w, rfl, rfl, .nil, .token h⟩
    | cons x u =>
      obtain ⟨rfl, rfl⟩ := List.cons.inj hs
      obtain ⟨ps₁, ps₂, w₁, w₂, rfl, rfl, h₁, h₂⟩ := ih rfl
      exact ⟨ps₁, ps₂, a :: w₁, w₂, rfl, rfl, .token h₁, h₂⟩
  | @expand p s ps w hp ok h ih =>
    cases u with
    | nil =>
      obtain rfl : v = .nonterminal p.head :: s := hs
      exact ⟨[], p :: ps, [], w, rfl, rfl, .nil, .expand hp ok h⟩
    | cons x u =>
      obtain ⟨rfl, rfl⟩ := List.cons.inj hs
      obtain ⟨ps₁, ps₂, w₁, w₂, rfl, rfl, h₁, h₂⟩ := ih (List.append_assoc p.body u v)
      exact ⟨p :: ps₁, ps₂, w₁, w₂, rfl, rfl, .expand hp ok h₁, h₂⟩

/-! ## readings are leftmost derivations -/

theorem Reads.leftmost {u : List Symbol} {ps : List Production} {w : List String}
    (h : g.Reads choice u ps w) (read : List String) :
    g.Leftmost (fun r p => choice ((read ++ w).drop r.length) p) (read.map .terminal ++ u) ps
      ((read ++ w).map .terminal) := by
  induction h generalizing read with
  | nil =>
    rw [List.append_nil, List.append_nil]
    exact .refl _
  | @token a u ps w _ ih =>
    have hread := ih (read ++ [a])
    rw [List.map_append, List.append_assoc, List.append_assoc] at hread
    exact hread
  | @expand p u ps w hp ok _ ih =>
    refine .step hp ?_ (ih read)
    rw [List.drop_left]
    exact ok

/-- the terminals left of the replaced nonterminal are tokens that the reading of the next form
has read; what it reads from there begins with the replacement -/
theorem Leftmost.reads {w : List String} {u v : List Symbol} {ps : List Production}
    (h : g.Leftmost (fun read p => choice (w.drop read.length) p) u ps v)
    (hv : v = w.map .terminal) : g.Reads choice u ps w := by
  induction h with
  | refl u =>
    rw [hv]
    exact reads_word choice w
  | step hp ok _ ih =>
    obtain ⟨rest, rfl, hrest⟩ := reads_tokens_iff.mp (ih hv)
    rw [List.drop_left] at ok
    exact reads_tokens_iff.mpr ⟨rest, rfl, .expand hp ok hrest⟩

theorem leftmost_iff_reads {u : List Symbol} {ps : List Production} {w : List String} :
    g.Leftmost (fun read p => choice (w.drop read.length) p) u ps (w.map .terminal) ↔
      g.Reads choice u ps w :=
  ⟨fun h => h.reads rfl, fun h => h.leftmost []⟩

theorem Reads.derives {u : List Symbol} {ps : List Production} {w : List String}
    (h : g.Reads choice u ps w) : g.Derives u (w.map .terminal) :=
  (leftmost_iff_reads.mpr h).derives

/-! ## every derivation of tokens can be read -/

theorem exists_reads_of_produces {u v : List Symbol} (hp : g.Produces u v) {w : List String}
    (h : ∃ ps, g.ReadsFreely v ps w) : ∃ ps, g.ReadsFreely u ps w := by
  obtain ⟨hp, left, right⟩ := hp
  obtain ⟨ps, h⟩ := h
  obtain ⟨ps₁, ps₂, w₁, w₂, rfl, rfl, hleft, hrest⟩ := h.split
  exact ⟨ps₁ ++ _ :: ps₂, hleft.append (.expand hp trivial hrest)⟩

theorem exists_reads_of_derives {u : List Symbol} {w : List String}
    (h : g.Derives u (w.map .terminal)) : ∃ ps, g.ReadsFreely u ps w := by
  induction h using Relation.ReflTransGen.head_induction_on with
  | refl => exact ⟨[], reads_word _ w⟩
  | head hp _ ih => exact exists_reads_of_produces hp ih

end SpanishSyntax.Grammar
