import SpanishSyntax.Grammar.Passes
import SpanishSyntax.Proofs.Grammar.Follow

/-!
# Passes report growth, and end

`Reports P f step` says that under the invariant `P` the step does what `f` does and notes a change
exactly if `f` makes one.  Steps that only make things larger keep this when they are put together
(`Reports.each`), for what two of them leave alone together, each leaves alone.  So a pass reports
for a round, and passes come to an end where rounds settle (`WhileChanged.of_settle`).

* `FirstSet.notesGrowth_merge`, `Ascending.notesGrowth_noteUnion`   insertions note that a set grew;
* `Grammar.firstLoop_iff`, `Grammar.followLoop_iff`   the loops end, in the tables;
* `Grammar.firstPass_firstTable`, `Grammar.followPass_followTable`  one more pass notes nothing.
-/

namespace SpanishSyntax

/-- what came out is larger, and a change is noted exactly if it is really larger -/
structure NotesGrowth {α : Type} (within : α → α → Prop) (x : α) (n : Noted α) : Prop where
  larger : within x n.value
  changed : n.changed = true ↔ ¬ within n.value x

/-- the step does what `f` does, and notes a change exactly if there is one -/
structure Reports {α : Type} (P : α → Prop) (f : α → α) (step : α → Noted α) : Prop where
  value : ∀ x, P x → (step x).value = f x
  changed : ∀ x, P x → ((step x).changed = true ↔ f x ≠ x)

namespace Reports

variable {α β : Type} {P : α → Prop} {size : α → Nat} {f g : α → α} {step step' : α → Noted α}

theorem same : Reports P (fun x => x) Noted.same :=
  ⟨fun _ _ => rfl, fun _ _ => ⟨fun h => (nomatch h), fun h => absurd rfl h⟩⟩

/-- a step on something fixed notes nothing -/
theorem eq_same (h : Reports P f step) {x : α} (hx : P x) (hfixed : f x = x) :
    step x = .same x := by
  have hchanged := mt (h.changed x hx).mp (not_not_intro hfixed)
  exact Noted.ext ((h.value x hx).trans hfixed) (Bool.eq_false_iff.mpr hchanged)

theorem andThen (hf : Inflates P size f) (hg : Inflates P size g) (h : Reports P f step)
    (h' : Reports P g step') : Reports P (fun x => g (f x)) fun x => (step x).andThen step' where
  value x hx := by
    show (step' (step x).value).value = g (f x)
    rw [h.value x hx, h'.value _ (hf.keeps x hx)]
  changed x hx := by
    show ((step x).changed || (step' (step x).value).changed) = true ↔ g (f x) ≠ x
    rw [Bool.or_eq_true, h.value x hx, h.changed x hx, h'.changed _ (hf.keeps x hx),
      ← not_and_or]
    refine not_congr ⟨?_, fun hfixed => ?_⟩
    · rintro ⟨hfx, hgfx⟩
      rw [hgfx, hfx]
    · obtain ⟨hfx, hgx⟩ := hf.fixed_comp hg hx hfixed
      exact ⟨hfx, by rwa [hfx]⟩

theorem each {f : α → β → α} {step : β → α → Noted α} {l : List β}
    (hf : ∀ b ∈ l, Inflates P size fun x => f x b)
    (h : ∀ b ∈ l, Reports P (fun x => f x b) (step b)) :
    Reports P (fun x => l.foldl f x) (Noted.each step l) := by
  induction l with
  | nil => exact same
  | cons b l ih =>
    obtain ⟨hfb, hfl⟩ := List.forall_mem_cons.mp hf
    obtain ⟨hb, hl⟩ := List.forall_mem_cons.mp h
    exact andThen hfb (Inflates.foldl hfl) hb (ih hfl hl)

end Reports

namespace WhileChanged

variable {α : Type} {pass : α → Noted α} {x y y' : α}

theorem of_same (h : pass x = .same x) : WhileChanged pass x x := by
  have hstop : WhileChanged pass x (pass x).value := .stop (by rw [h]; rfl)
  rwa [h] at hstop

theorem unique (h : WhileChanged pass x y) (h' : WhileChanged pass x y') : y = y' := by
  induction h with
  | stop h =>
    cases h' with
    | stop _ => rfl
    | again hagain _ => rw [h] at hagain; cases hagain
  | again h _ ih =>
    cases h' with
    | stop hstop => rw [h] at hstop; cases hstop
    | again _ rest => exact ih rest

/-- passes end where rounds settle -/
theorem of_settle [DecidableEq α] {P : α → Prop} {f : α → α} (h : Reports P f pass)
    (hf : ∀ x, P x → P (f x)) (n : Nat) {x : α} (hx : P x)
    (hfixed : f (settle f n x) = settle f n x) : WhileChanged pass x (settle f n x) := by
  induction n generalizing x with
  | zero => exact of_same (h.eq_same hx hfixed)
  | succ n ih =>
    unfold settle at hfixed ⊢
    by_cases hfx : f x = x
    · rw [if_pos hfx]
      exact of_same (h.eq_same hx hfx)
    · rw [if_neg hfx] at hfixed ⊢
      refine .again ((h.changed x hx).mpr hfx) ?_
      rw [h.value x hx]
      exact ih (hf x hx) hfixed

theorem iff_settle [DecidableEq α] {P : α → Prop} {f : α → α} (h : Reports P f pass)
    (hf : ∀ x, P x → P (f x)) (n : Nat) (hx : P x) (hfixed : f (settle f n x) = settle f n x) :
    WhileChanged pass x y ↔ y = settle f n x := by
  have hend := of_settle h hf n hx hfixed
  constructor
  · exact fun hy => hy.unique hend
  · rintro rfl
    exact hend

end WhileChanged

/-! ## insertions -/

namespace Ascending

variable {α : Type} [LT α] [DecidableLT α] [DecidableEq α]

theorem value_noteUnion (m l : List α) : (noteUnion m l).value = union l m := by
  induction m generalizing l with
  | nil => rfl
  | cons a m ih => exact ih (insert a l)

theorem changed_noteUnion_iff_exists {m l : List α} :
    (noteUnion m l).changed = true ↔ ∃ a ∈ m, a ∉ l := by
  induction m generalizing l with
  | nil => simp [noteUnion, Noted.each, Noted.same]
  | cons a m ih =>
    show (decide (a ∉ l) || (noteUnion m (insert a l)).changed) = true ↔ _
    rw [Bool.or_eq_true, decide_eq_true_iff, ih, List.exists_mem_cons_iff]
    -- what the first insertion puts in is not new any more
    by_cases ha : a ∈ l
    · simp only [mem_insert, not_or]
      refine or_congr_right (exists_congr fun b => and_congr_right fun _ => ?_)
      exact ⟨fun h => h.2, fun h => ⟨fun e => h (e ▸ ha), h⟩⟩
    · simp only [ha, not_false_eq_true, true_or]

theorem notesGrowth_noteUnion (m l : List α) : NotesGrowth (· ⊆ ·) l (noteUnion m l) where
  larger := by
    rw [value_noteUnion]
    exact fun _ ha => mem_union.mpr (.inl ha)
  changed := by
    rw [changed_noteUnion_iff_exists, value_noteUnion]
    constructor
    · rintro ⟨a, ha, hal⟩ hsub
      exact hal (hsub (mem_union.mpr (.inr ha)))
    · intro hsub
      by_contra hnone
      push Not at hnone
      exact hsub fun a ha => (mem_union.mp ha).elim id (hnone a)

theorem union_eq_of_subset [IsStrictTotalOrder α (· < ·)] {l m : List α} (hl : Ascends l)
    (h : union l m ⊆ l) : union l m = l := by
  rcases union_grows hl m with heq | hlt
  · exact heq
  · have hle := length_le (ascends_union hl) h
    omega

theorem reports_noteUnion [IsStrictTotalOrder α (· < ·)] (m : List α) :
    Reports Ascends (fun l => union l m) (noteUnion m) where
  value l _ := value_noteUnion m l
  changed l hl := by
    rw [(notesGrowth_noteUnion m l).changed, value_noteUnion]
    exact not_congr ⟨union_eq_of_subset hl, fun h => by rw [h]; exact List.Subset.refl l⟩

end Ascending

namespace FirstSet

theorem value_merge (s t : FirstSet) : (s.merge t).value = s.union t := by
  unfold merge union
  dsimp only
  rw [Ascending.value_noteUnion]
  cases t.nullable <;> cases s.nullable <;> rfl

theorem changed_merge_eq_grows (s t : FirstSet) : (s.merge t).changed = s.grows t := by
  have hterminals : (Ascending.noteUnion t.terminals s.terminals).changed =
      t.terminals.any (· ∉ s.terminals) := by
    rw [Bool.eq_iff_iff, Ascending.changed_noteUnion_iff_exists, List.any_eq_true]
    simp only [decide_eq_true_iff]
  unfold merge grows
  dsimp only
  rw [← hterminals]
  cases t.nullable && !s.nullable <;> simp

theorem notesGrowth_merge (s t : FirstSet) : NotesGrowth Within s (s.merge t) where
  larger := by
    rw [value_merge]
    exact ⟨fun _ ha => mem_union.mpr (.inl ha), fun hn => by simp [union, hn]⟩
  changed := by
    rw [changed_merge_eq_grows, value_merge, grows, Bool.or_eq_true, List.any_eq_true,
      Bool.and_eq_true, Bool.not_eq_true']
    constructor
    · rintro (⟨a, ha, hnew⟩ | ⟨htn, hsn⟩) hw
      · exact of_decide_eq_true hnew (hw.terminals (mem_union.mpr (.inr ha)))
      · exact Bool.false_ne_true (hsn.symm.trans (hw.nullable (by simp [union, htn])))
    · intro hw
      by_contra hnone
      rw [not_or] at hnone
      obtain ⟨hterminals, hnullable⟩ := hnone
      refine hw ⟨fun a ha => ?_, fun hn => ?_⟩
      · refine (mem_union.mp ha).elim id fun ha => ?_
        by_contra hnew
        exact hterminals ⟨a, ha, decide_eq_true hnew⟩
      · by_contra hsn
        rw [Bool.not_eq_true] at hsn
        exact hnullable ⟨by simpa [union, hsn] using hn, hsn⟩

theorem union_eq_of_within {s t : FirstSet} (hs : Ascending.Ascends s.terminals)
    (h : (s.union t).Within s) : s.union t = s := by
  have hterminals : (s.union t).terminals = s.terminals :=
    Ascending.union_eq_of_subset hs h.terminals
  have hnullable : (s.union t).nullable = s.nullable := by
    refine Bool.eq_iff_iff.mpr ⟨h.nullable, fun hn => ?_⟩
    show (s.nullable || t.nullable) = true
    rw [hn, Bool.true_or]
  cases hunion : s.union t
  rw [hunion] at hterminals hnullable
  cases hterminals
  cases hnullable
  rfl

theorem reports_merge (names : List String) (t : FirstSet) :
    Reports (Fits names) (·.union t) (·.merge t) where
  value s _ := value_merge s t
  changed s hs := by
    rw [(notesGrowth_merge s t).changed, value_merge]
    exact not_congr ⟨union_eq_of_within hs.ascends, fun h => by rw [h]; exact .refl s⟩

end FirstSet

/-! ## tables -/

namespace SetTable

variable {σ : Type} (name : String)

theorem change_of_notMem {u : σ → σ} {t : List (String × σ)} (h : name ∉ t.map (·.1)) :
    change name u t = t := by
  refine (List.map_congr_left fun e he => ?_).trans (List.map_id t)
  exact if_neg fun hname => h (List.mem_map.mpr ⟨e, he, hname⟩)

/-- where a name has one set at most, its change is noted as the step notes it -/
theorem note_spec {P : σ → Prop} {u : σ → σ} {step : σ → Noted σ} (h : Reports P u step)
    {t : List (String × σ)} (hkeys : (t.map (·.1)).Nodup) (ht : ∀ e ∈ t, P e.2) :
    (note name step t).value = change name u t ∧
      ((note name step t).changed = true ↔ change name u t ≠ t) := by
  induction t with
  | nil => exact ⟨rfl, fun h => (nomatch h), fun h => absurd rfl h⟩
  | cons e t ih =>
    obtain ⟨n, s⟩ := e
    obtain ⟨hnotMem, hkeys⟩ := List.nodup_cons.mp hkeys
    obtain ⟨hs, ht⟩ := List.forall_mem_cons.mp ht
    have hcons : change name u ((n, s) :: t) = changeEntry name u (n, s) :: change name u t := rfl
    rw [hcons]
    unfold note
    by_cases hn : n = name
    · subst hn
      rw [if_pos rfl, changeEntry_self, change_of_notMem n hnotMem]
      refine ⟨congrArg (fun s => (n, s) :: t) (h.value s hs), (h.changed s hs).trans (not_congr ?_)⟩
      rw [List.cons.injEq, Prod.mk.injEq]
      exact ⟨fun hu => ⟨⟨rfl, hu⟩, rfl⟩, fun hu => hu.1.2⟩
    · have hentry : changeEntry name u (n, s) = (n, s) := if_neg hn
      obtain ⟨hvalue, hchanged⟩ := ih hkeys ht
      rw [if_neg hn, hentry]
      refine ⟨congrArg ((n, s) :: ·) hvalue, hchanged.trans (not_congr ?_)⟩
      rw [List.cons.injEq]
      exact ⟨fun hu => ⟨rfl, hu⟩, fun hu => hu.2⟩

theorem reports_note {P : σ → Prop} {Q : List (String × σ) → Prop}
    {u : List (String × σ) → σ → σ} {step : List (String × σ) → σ → Noted σ}
    (h : ∀ t, Reports P (u t) (step t)) (hkeys : ∀ t, Q t → (t.map (·.1)).Nodup)
    (hsets : ∀ t, Q t → ∀ e ∈ t, P e.2) :
    Reports Q (fun t => change name (u t) t) fun t => note name (step t) t where
  value t ht := (note_spec name (h t) (hkeys t ht) (hsets t ht)).1
  changed t ht := (note_spec name (h t) (hkeys t ht) (hsets t ht)).2

end SetTable

namespace FollowTable

variable {g : Grammar} {firsts : FirstTable}

theorem reports_noteWalk (hg : g.nonterminals.Nodup) (hf : firsts.Shaped g) (head : String)
    {body : List Symbol} (hbody : ∀ x ∈ body, g.Declares x) :
    Reports (Shaped g) (fun t => walk firsts head t body) (noteWalk firsts head body) := by
  induction body with
  | nil => exact Reports.same
  | cons x rest ih =>
    obtain ⟨_, hrest⟩ := List.forall_mem_cons.mp hbody
    cases x with
    | terminal a => exact ih hrest
    | nonterminal n =>
      have hnote := SetTable.reports_note n (Q := Shaped g)
        (fun t => Ascending.reports_noteUnion (FollowTable.after firsts t head rest))
        (fun t ht => ht.keys.symm ▸ hg) fun t ht => ht.ascends
      exact hnote.andThen (inflates_enlarge hf n head hrest) (inflates_walk hf head hrest)
        (ih hrest)

end FollowTable

/-! ## passes -/

namespace Grammar

variable {g : Grammar} {firsts : FirstTable}

theorem reports_firstPass (hg : g.Valid) (hnodup : g.nonterminals.Nodup) :
    Reports (FirstTable.Shaped g) g.firstRound g.firstPass := by
  refine Reports.each (fun p hp => FirstTable.inflates_enlarge hg hp) fun p _ => ?_
  exact SetTable.reports_note p.head
    (fun t => FirstSet.reports_merge g.terminals (FirstTable.firstOf t p.body))
    (fun t ht => ht.keys.symm ▸ hnodup) fun t ht => ht.fits

theorem reports_followPass (hg : g.Valid) (hnodup : g.nonterminals.Nodup)
    (hf : firsts.Shaped g) :
    Reports (FollowTable.Shaped g) (g.followRound firsts) (g.followPass firsts) :=
  Reports.each (fun p hp => FollowTable.inflates_walk hf p.head (hg.declares_body p hp))
    fun p hp => FollowTable.reports_noteWalk hnodup hf p.head (hg.declares_body p hp)

theorem firstLoop_iff (hg : g.Valid) (hnodup : g.nonterminals.Nodup) {t : FirstTable} :
    g.FirstLoop t ↔ t = g.firstTable :=
  WhileChanged.iff_settle (reports_firstPass hg hnodup) (inflates_firstRound hg).keeps
    g.firstRounds (shaped_firstSeed g) (firstRound_firstTable hg)

theorem firstPass_firstTable (hg : g.Valid) (hnodup : g.nonterminals.Nodup) :
    g.firstPass g.firstTable = .same g.firstTable :=
  (reports_firstPass hg hnodup).eq_same (shaped_firstTable hg) (firstRound_firstTable hg)

theorem followLoop_iff (hg : g.Valid) (hnodup : g.nonterminals.Nodup) (hf : firsts.Shaped g)
    {t : FollowTable} : g.FollowLoop firsts t ↔ t = g.followTable firsts :=
  WhileChanged.iff_settle (reports_followPass hg hnodup hf) (inflates_followRound hg hf).keeps
    g.followRounds (shaped_followSeed g) (followRound_followTable hg hf)

theorem followPass_followTable (hg : g.Valid) (hnodup : g.nonterminals.Nodup)
    (hf : firsts.Shaped g) :
    g.followPass firsts (g.followTable firsts) = .same (g.followTable firsts) :=
  (reports_followPass hg hnodup hf).eq_same (shaped_followTable hg hf)
    (followRound_followTable hg hf)

end Grammar

end SpanishSyntax
