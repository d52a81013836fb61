import Mathlib.Data.List.TakeWhile

/-!
# Runs of characters

A run is what `takeWhile` takes from the front of a text.  It ends where the rest begins with a
character of another class (`takeWhile_run`, `dropWhile_run`), so every text is a run and a rest
in one way (`exists_run`, `run_append_inj`, `append_cons_inj`), and it holds every text in front
that is made of the class (`isPrefix_takeWhile`).
-/

namespace SpanishSyntax.Text

variable {α : Type} {p : α → Bool}

theorem takeWhile_append_of_head {rest : List α} (h : ∀ x ∈ rest.head?, p x = false)
    (cs : List α) : (cs ++ rest).takeWhile p = cs.takeWhile p := by
  induction cs with
  | nil =>
    cases rest with
    | nil => rfl
    | cons x rest => exact List.takeWhile_cons_of_neg (by simp [h x rfl])
  | cons c cs ih => rw [List.cons_append, List.takeWhile_cons, List.takeWhile_cons, ih]

theorem dropWhile_append_of_head {rest : List α} (h : ∀ x ∈ rest.head?, p x = false)
    (cs : List α) : (cs ++ rest).dropWhile p = cs.dropWhile p ++ rest := by
  induction cs with
  | nil =>
    cases rest with
    | nil => rfl
    | cons x rest => exact List.dropWhile_cons_of_neg (by simp [h x rfl])
  | cons c cs ih =>
    rw [List.cons_append, List.dropWhile_cons, List.dropWhile_cons, ih]
    split <;> rfl

theorem takeWhile_run {run rest : List α} (hrun : ∀ x ∈ run, p x = true)
    (hrest : ∀ x ∈ rest.head?, p x = false) : (run ++ rest).takeWhile p = run := by
  rw [takeWhile_append_of_head hrest, List.takeWhile_eq_self_iff.mpr hrun]

theorem dropWhile_run {run rest : List α} (hrun : ∀ x ∈ run, p x = true)
    (hrest : ∀ x ∈ rest.head?, p x = false) : (run ++ rest).dropWhile p = rest := by
  rw [dropWhile_append_of_head hrest, List.dropWhile_eq_nil_iff.mpr hrun, List.nil_append]

/-- a text is cut in one way where a run ends -/
theorem run_append_inj {a b r s : List α} (ha : ∀ x ∈ a, p x = true) (hb : ∀ x ∈ b, p x = true)
    (hr : ∀ x ∈ r.head?, p x = false) (hs : ∀ x ∈ s.head?, p x = false) (h : a ++ r = b ++ s) :
    a = b ∧ r = s := by
  constructor
  · rw [← takeWhile_run ha hr, h, takeWhile_run hb hs]
  · rw [← dropWhile_run ha hr, h, dropWhile_run hb hs]

/-- and in one way where a character comes first -/
theorem append_cons_inj [DecidableEq α] {x : α} {a b r s : List α} (ha : x ∉ a) (hb : x ∉ b)
    (h : a ++ x :: r = b ++ x :: s) : a = b ∧ r = s := by
  have hrun : ∀ {cs : List α}, x ∉ cs → ∀ y ∈ cs, decide (y ≠ x) = true := by
    intro cs hcs y hy
    exact decide_eq_true fun heq => hcs (heq ▸ hy)
  have hrest : ∀ cs : List α, ∀ y ∈ (x :: cs).head?, decide (y ≠ x) = false := by
    intro cs y hy
    exact decide_eq_false fun hne => hne (Option.some.inj hy).symm
  obtain ⟨hab, hbehind⟩ := run_append_inj (hrun ha) (hrun hb) (hrest r) (hrest s) h
  exact ⟨hab, (List.cons.inj hbehind).2⟩

theorem exists_run (p : α → Bool) (cs : List α) :
    ∃ run rest, cs = run ++ rest ∧ (∀ x ∈ run, p x = true) ∧ ∀ x ∈ rest.head?, p x = false := by
  refine ⟨cs.takeWhile p, cs.dropWhile p, List.takeWhile_append_dropWhile.symm,
    fun x hx => List.mem_takeWhile_imp hx, fun x hx => ?_⟩
  have hhead := List.head?_dropWhile_not p cs
  rwa [Option.mem_def.mp hx] at hhead

theorem takeWhile_isPrefix_append (p : α → Bool) (cs rest : List α) :
    cs.takeWhile p <+: (cs ++ rest).takeWhile p := by
  rw [List.takeWhile_append]
  split
  · exact (List.takeWhile_prefix p).trans (List.prefix_append cs _)
  · exact List.prefix_rfl

theorem isPrefix_takeWhile {run cs : List α} (h : run <+: cs) (hrun : ∀ x ∈ run, p x = true) :
    run <+: cs.takeWhile p := by
  obtain ⟨rest, rfl⟩ := h
  have hprefix := takeWhile_isPrefix_append p run rest
  rwa [List.takeWhile_eq_self_iff.mpr hrun] at hprefix

end SpanishSyntax.Text
