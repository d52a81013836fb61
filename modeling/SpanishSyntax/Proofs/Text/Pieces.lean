import Mathlib.Data.List.Basic
import Mathlib.Data.List.TakeWhile
import SpanishSyntax.Text.Blank
import SpanishSyntax.Text.Pieces

/-!
# Joining and cutting again

A text joined with a separator is cut back into its parts when no part holds the separator
(`pieces_joined`).  Words are joined so with a space, lines with a line feed.

* `words_joined`    words that are not empty come back;
* `lines_joined`    lines come back, and with a line feed behind each (`lines_unlines`) there is an
                    empty line at the end;
* `trim_eq_self`    a text that begins and ends with no blank is trimmed already, and blanks around
                    a text make no difference (`trim_append`).
-/

namespace SpanishSyntax.Text

section

variable {p : Char → Bool}

/-! ## pieces -/

theorem pieces_of_no_sep {cs : List Char} (h : ∀ c ∈ cs, p c = false) : pieces p cs = [cs] := by
  induction cs with
  | nil => rfl
  | cons c cs ih =>
    obtain ⟨hc, hcs⟩ := List.forall_mem_cons.mp h
    rw [pieces, hc, ih hcs]
    rfl

theorem pieces_append_cons {s : Char} (hs : p s = true) (cs rest : List Char) :
    pieces p (cs ++ s :: rest) = pieces p cs ++ pieces p rest := by
  induction cs with
  | nil => exact pieces_cons_sep hs rest
  | cons c cs ih =>
    by_cases hc : p c = true
    · rw [List.cons_append, pieces_cons_sep hc, pieces_cons_sep hc, ih, List.cons_append]
    · rw [List.cons_append, pieces, pieces, if_neg hc, if_neg hc, ih]
      cases hps : pieces p cs with
      | nil => exact absurd hps (pieces_ne_nil p cs)
      | cons w ws => rfl

theorem pieces_append_sep {cs : List Char} (h : ∀ c ∈ cs, p c = false) {s : Char}
    (hs : p s = true) (rest : List Char) : pieces p (cs ++ s :: rest) = cs :: pieces p rest := by
  rw [pieces_append_cons hs, pieces_of_no_sep h, List.singleton_append]

/-- a text has no separator, or a first one with the rest behind it -/
@[elab_as_elim]
theorem sep_induction (p : Char → Bool) {motive : List Char → Prop}
    (plain : ∀ cs, (∀ c ∈ cs, p c = false) → motive cs)
    (sep : ∀ w s rest, (∀ c ∈ w, p c = false) → p s = true → motive rest → motive (w ++ s :: rest))
    (cs : List Char) : motive cs := by
  -- the part in front grows until it meets a separator
  have hfront : ∀ w, (∀ c ∈ w, p c = false) → motive cs ∧ motive (w ++ cs) := by
    induction cs with
    | nil => exact fun w hw => ⟨plain [] (fun _ hc => nomatch hc), plain _ (by simpa using hw)⟩
    | cons c cs ih =>
      by_cases hc : p c = true
      · have hcs : motive cs := (ih [] fun _ hd => nomatch hd).1
        exact fun w hw => ⟨sep [] c cs (fun _ hd => nomatch hd) hc hcs, sep w c cs hw hc hcs⟩
      · rw [Bool.not_eq_true] at hc
        intro w hw
        have hsnoc : ∀ d ∈ w ++ [c], p d = false :=
          List.forall_mem_append.mpr ⟨hw, List.forall_mem_singleton.mpr hc⟩
        have hlong := (ih (w ++ [c]) hsnoc).2
        rw [List.append_assoc] at hlong
        exact ⟨(ih [c] (List.forall_mem_singleton.mpr hc)).2, hlong⟩
  exact (hfront [] fun _ hc => nomatch hc).1

theorem mem_pieces {cs w : List Char} (h : w ∈ pieces p cs) : ∀ c ∈ w, p c = false ∧ c ∈ cs := by
  induction cs generalizing w with
  | nil =>
    obtain rfl := List.mem_singleton.mp h
    exact fun _ hc => nomatch hc
  | cons d cs ih =>
    have hrest : ∀ v ∈ pieces p cs, ∀ c ∈ v, p c = false ∧ c ∈ d :: cs := fun v hv c hc =>
      ⟨(ih hv c hc).1, List.mem_cons_of_mem _ (ih hv c hc).2⟩
    by_cases hd : p d = true
    · rw [pieces_cons_sep hd] at h
      rcases List.mem_cons.mp h with rfl | h
      · exact fun _ hc => nomatch hc
      · exact hrest w h
    · cases hps : pieces p cs with
      | nil => exact absurd hps (pieces_ne_nil p cs)
      | cons v vs =>
        rw [pieces, if_neg hd, hps] at h
        rw [hps] at hrest
        rcases List.mem_cons.mp h with rfl | h
        · exact List.forall_mem_cons.mpr
            ⟨⟨Bool.eq_false_iff.mpr hd, List.mem_cons_self⟩, hrest v List.mem_cons_self⟩
        · exact hrest w (List.mem_cons_of_mem _ h)

theorem mem_words {cs w : List Char} (h : w ∈ words p cs) :
    w ≠ [] ∧ ∀ c ∈ w, p c = false ∧ c ∈ cs := by
  obtain ⟨hw, hne⟩ := List.mem_filter.mp h
  exact ⟨of_decide_eq_true hne, mem_pieces hw⟩

/-! ## words -/

theorem words_of_no_sep {cs : List Char} (hne : cs ≠ []) (h : ∀ c ∈ cs, p c = false) :
    words p cs = [cs] := by
  rw [words, pieces_of_no_sep h]
  exact List.filter_cons_of_pos (decide_eq_true hne)

theorem words_append_cons {s : Char} (hs : p s = true) (cs rest : List Char) :
    words p (cs ++ s :: rest) = words p cs ++ words p rest := by
  rw [words, pieces_append_cons hs, List.filter_append]
  rfl

theorem words_append_seps {seps : List Char} (h : ∀ c ∈ seps, p c = true) (cs : List Char) :
    words p (cs ++ seps) = words p cs := by
  induction seps generalizing cs with
  | nil => rw [List.append_nil]
  | cons s seps ih =>
    obtain ⟨hs, hseps⟩ := List.forall_mem_cons.mp h
    have hnil : words p seps = [] := ih hseps []
    rw [words_append_cons hs, hnil, List.append_nil]

theorem words_seps_append {seps : List Char} (h : ∀ c ∈ seps, p c = true) (cs : List Char) :
    words p (seps ++ cs) = words p cs := by
  induction seps with
  | nil => rfl
  | cons s seps ih =>
    obtain ⟨hs, hseps⟩ := List.forall_mem_cons.mp h
    have hfirst := words_append_cons hs [] (seps ++ cs)
    exact hfirst.trans (ih hseps)

/-! ## joined texts -/

theorem toList_joined_cons_cons (sep u v : String) (ws : List String) :
    (joined sep (u :: v :: ws)).toList =
      u.toList ++ (sep.toList ++ (joined sep (v :: ws)).toList) := by
  rw [joined_cons_cons, String.toList_append, String.toList_append, List.append_assoc]

theorem pieces_joined {sep : String} {s : Char} (hsep : sep.toList = [s]) (hs : p s = true)
    {ws : List String} (hne : ws ≠ []) (h : ∀ w ∈ ws, ∀ c ∈ w.toList, p c = false) :
    pieces p (joined sep ws).toList = ws.map String.toList := by
  induction ws with
  | nil => exact absurd rfl hne
  | cons u ws ih =>
    obtain ⟨hu, hws⟩ := List.forall_mem_cons.mp h
    cases ws with
    | nil => exact pieces_of_no_sep hu
    | cons v ws =>
      rw [toList_joined_cons_cons, hsep, List.singleton_append, pieces_append_sep hu hs,
        ih (List.cons_ne_nil _ _) hws]
      rfl

theorem words_joined {sep : String} {s : Char} (hsep : sep.toList = [s]) (hs : p s = true)
    {ws : List String} (h : ∀ w ∈ ws, w.toList ≠ [] ∧ ∀ c ∈ w.toList, p c = false) :
    words p (joined sep ws).toList = ws.map String.toList := by
  cases ws with
  | nil => rfl
  | cons u ws =>
    rw [words, pieces_joined hsep hs (List.cons_ne_nil _ _) fun w hw => (h w hw).2]
    refine List.filter_eq_self.mpr fun w hw => ?_
    obtain ⟨v, hv, rfl⟩ := List.mem_map.mp hw
    exact decide_eq_true (h v hv).1

theorem mem_joined {sep : String} {ws : List String} {c : Char}
    (h : c ∈ (joined sep ws).toList) : c ∈ sep.toList ∨ ∃ w ∈ ws, c ∈ w.toList := by
  induction ws with
  | nil => cases h
  | cons u ws ih =>
    cases ws with
    | nil => exact .inr ⟨u, List.mem_cons_self, h⟩
    | cons v ws =>
      rw [toList_joined_cons_cons] at h
      rcases List.mem_append.mp h with h | h
      · exact .inr ⟨u, List.mem_cons_self, h⟩
      · rcases List.mem_append.mp h with h | h
        · exact .inl h
        · rcases ih h with h | ⟨w, hw, hc⟩
          · exact .inl h
          · exact .inr ⟨w, List.mem_cons_of_mem _ hw, hc⟩

/-- a joined text ends with one of the parts -/
theorem exists_joined_eq_append (sep : String) {ws : List String} (hne : ws ≠ []) :
    ∃ front, ∃ w ∈ ws, (joined sep ws).toList = front ++ w.toList := by
  induction ws with
  | nil => exact absurd rfl hne
  | cons u ws ih =>
    cases ws with
    | nil => exact ⟨[], u, List.mem_cons_self, rfl⟩
    | cons v ws =>
      obtain ⟨front, w, hw, hlast⟩ := ih (List.cons_ne_nil _ _)
      refine ⟨u.toList ++ (sep.toList ++ front), w, List.mem_cons_of_mem _ hw, ?_⟩
      rw [toList_joined_cons_cons, hlast, List.append_assoc, List.append_assoc]

end

/-! ## lines -/

theorem lines_joined {ls : List String} (hne : ls ≠ []) (h : ∀ l ∈ ls, '\n' ∉ l.toList) :
    lines (joined "\n" ls) = ls.map String.toList := by
  refine pieces_joined (by rfl) (by rfl) hne fun l hl c hc => ?_
  rw [beq_eq_false_iff_ne]
  rintro rfl
  exact h l hl hc

theorem lines_unlines {ls : List String} (h : ∀ l ∈ ls, '\n' ∉ l.toList) :
    lines (unlines ls) = ls.map String.toList ++ [[]] := by
  induction ls with
  | nil => rfl
  | cons l ls ih =>
    obtain ⟨hl, hls⟩ := List.forall_mem_cons.mp h
    have hsep : ∀ c ∈ l.toList, (c == '\n') = false := by
      intro c hc
      rw [beq_eq_false_iff_ne]
      rintro rfl
      exact hl hc
    have htext : (unlines (l :: ls)).toList = l.toList ++ '\n' :: (unlines ls).toList := by
      rw [unlines_cons, String.toList_append, String.toList_append, List.append_assoc]
      rfl
    rw [lines, htext, pieces_append_sep hsep (by rfl)]
    exact congrArg (List.cons l.toList) (ih hls)

/-! ## trimming -/

/-- a text with nothing but blanks in it -/
def Blank (cs : List Char) : Prop := ∀ c ∈ cs, isBlank c = true

theorem Blank.append {cs ds : List Char} (hc : Blank cs) (hd : Blank ds) : Blank (cs ++ ds) :=
  List.forall_mem_append.mpr ⟨hc, hd⟩

theorem trim_append {before behind : List Char} (hbefore : Blank before) (hbehind : Blank behind)
    (cs : List Char) : trim (before ++ (cs ++ behind)) = trim cs := by
  have hreverse : ∀ c ∈ behind.reverse, isBlank c = true := fun c hc =>
    hbehind c (List.mem_reverse.mp hc)
  unfold trim
  rw [List.dropWhile_append_of_pos hbefore, List.dropWhile_append]
  split
  · rename_i hempty
    rw [List.isEmpty_iff.mp hempty, List.dropWhile_eq_nil_iff.mpr hbehind]
  · rw [List.reverse_append, List.dropWhile_append_of_pos hreverse]

/-- the blanks at the end of a text -/
theorem exists_blank_end (cs : List Char) : ∃ front behind, cs = front ++ behind ∧ Blank behind ∧
    ∀ c ∈ front.getLast?, isBlank c = false := by
  refine ⟨(cs.reverse.dropWhile isBlank).reverse, (cs.reverse.takeWhile isBlank).reverse, ?_,
    fun c hc => List.mem_takeWhile_imp (List.mem_reverse.mp hc), fun c hc => ?_⟩
  · rw [← List.reverse_append, List.takeWhile_append_dropWhile, List.reverse_reverse]
  · rw [List.getLast?_reverse] at hc
    have hnot := List.head?_dropWhile_not isBlank cs.reverse
    rw [Option.mem_def.mp hc] at hnot
    exact hnot

theorem exists_trim (cs : List Char) :
    ∃ before behind, cs = before ++ (trim cs ++ behind) ∧ Blank before ∧ Blank behind := by
  refine ⟨cs.takeWhile isBlank, ((cs.dropWhile isBlank).reverse.takeWhile isBlank).reverse, ?_,
    fun c hc => List.mem_takeWhile_imp hc, fun c hc =>
      List.mem_takeWhile_imp (List.mem_reverse.mp hc)⟩
  rw [trim, ← List.reverse_append, List.takeWhile_append_dropWhile, List.reverse_reverse,
    List.takeWhile_append_dropWhile]

theorem not_isBlank_head_trim (cs : List Char) : ∀ c ∈ (trim cs).head?, isBlank c = false := by
  intro c hc
  obtain ⟨behind, hbehind⟩ : trim cs <+: cs.dropWhile isBlank := by
    rw [trim, ← List.reverse_suffix, List.reverse_reverse]
    exact List.dropWhile_suffix isBlank
  have hhead := List.head?_dropWhile_not isBlank cs
  rwa [← hbehind, List.head?_append, Option.mem_def.mp hc] at hhead

theorem trim_eq_nil_iff {cs : List Char} : trim cs = [] ↔ Blank cs := by
  constructor
  · intro h
    obtain ⟨before, behind, hcs, hbefore, hbehind⟩ := exists_trim cs
    rw [hcs, h]
    exact hbefore.append hbehind
  · intro h
    have htrim := trim_append h (fun _ hc => nomatch hc : Blank []) []
    rwa [List.append_nil, List.append_nil] at htrim

theorem trim_eq_self {cs : List Char} (hfirst : ∀ c ∈ cs.head?, isBlank c = false)
    (hlast : ∀ c ∈ cs.getLast?, isBlank c = false) : trim cs = cs := by
  have hkeep : ∀ ds : List Char, (∀ c ∈ ds.head?, isBlank c = false) →
      ds.dropWhile isBlank = ds := by
    intro ds hds
    cases ds with
    | nil => rfl
    | cons d ds => exact List.dropWhile_cons_of_neg (by simp [hds d rfl])
  have hreverse : ∀ c ∈ cs.reverse.head?, isBlank c = false := by
    rw [List.head?_reverse]
    exact hlast
  rw [trim, hkeep cs hfirst, hkeep _ hreverse, List.reverse_reverse]

/-- what stands between blanks, when it begins with no blank and the blanks at its end are cut -/
theorem trim_between {before behind front rear : List Char} {x : Char} (hbefore : Blank before)
    (hbehind : Blank behind) (hfirst : ∀ c ∈ (front ++ x :: rear).head?, isBlank c = false)
    (hx : isBlank x = false) (hrear : ∀ c ∈ rear.getLast?, isBlank c = false) :
    trim (before ++ ((front ++ x :: rear) ++ behind)) = front ++ x :: rear := by
  rw [trim_append hbefore hbehind]
  refine trim_eq_self hfirst fun c hc => ?_
  rw [List.getLast?_append_of_ne_nil _ (List.cons_ne_nil x rear)] at hc
  cases rear with
  | nil =>
    obtain rfl := Option.some.inj hc
    exact hx
  | cons y rear =>
    rw [List.getLast?_cons_cons] at hc
    exact hrear c hc

end SpanishSyntax.Text
