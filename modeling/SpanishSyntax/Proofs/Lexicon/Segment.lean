import Mathlib.Data.List.Pairwise
import SpanishSyntax.Lexicon.Segment
import SpanishSyntax.Proofs.Text.Classes
import SpanishSyntax.Proofs.Text.Runs
import SpanishSyntax.Text.Pieces

/-!
# How a sentence is cut

`Cut index offset cs ls` says that the text `cs` is cut into the lexemes `ls`, counted from `index`
and `offset` on: a blank is skipped, and any other character begins a lexeme that is followed by
the rest.  It is the graph of the segmentation (`Cut.segmentFrom_eq`, `cut_segmentFrom`), so what
holds of the lexemes is proved by induction on it.

* `lexemeAt_of_blank`     a lexeme is found again when only a blank, or nothing, stands behind it;
* `Cut.exists_covers`     each character that is no blank lies in a lexeme, behind the characters
                          before it, and in no other (`Cut.covers_unique`);
* `core_segment_joined`   cutting the lexemes again, with a space between them, gives the same.
-/

namespace SpanishSyntax.Lexicon

open Text (takeWhile_append_of_head dropWhile_append_of_head takeWhile_run dropWhile_run
  takeWhile_isPrefix_append)

/-! ## runs of characters -/

/-- what stands behind a run, if it begins with a blank or is empty -/
def EndsRun (rest : List Char) : Prop := ∀ x ∈ rest.head?, Text.isBlank x = true

theorem endsRun_nil : EndsRun [] := fun _ h => nomatch h

theorem endsRun_space (rest : List Char) : EndsRun (' ' :: rest) := by
  intro x hx
  obtain rfl := Option.some.inj hx
  decide

theorem EndsRun.no_wordLetter {rest : List Char} (h : EndsRun rest) :
    ∀ x ∈ rest.head?, isWordLetter x = false := fun x hx => by
  simp [isWordLetter, h x hx]

theorem EndsRun.no_digit {rest : List Char} (h : EndsRun rest) :
    ∀ x ∈ rest.head?, x.isDigit = false := fun x hx => by
  rw [Bool.eq_false_iff]
  intro hdigit
  have hblank := h x hx
  rw [Text.not_isBlank_of_isDigit hdigit] at hblank
  cases hblank

theorem EndsRun.no_point {rest : List Char} (h : EndsRun rest) : ∀ r, rest ≠ '.' :: r := by
  rintro r rfl
  have hpoint := h '.' rfl
  revert hpoint
  decide

theorem not_isBlank_of_isWordLetter {c : Char} (h : isWordLetter c = true) :
    Text.isBlank c = false := by
  simp only [isWordLetter, Bool.and_eq_true, Bool.not_eq_true'] at h
  exact h.1

theorem not_isMark_of_isWordLetter {c : Char} (h : isWordLetter c = true) : isMark c = false := by
  simp only [isWordLetter, Bool.and_eq_true, Bool.not_eq_true'] at h
  exact h.2

theorem point_not_mem_of_wordLetters {cs : List Char} (h : ∀ x ∈ cs, isWordLetter x = true) :
    '.' ∉ cs := by
  intro hmem
  have hmark := not_isMark_of_isWordLetter (h '.' hmem)
  revert hmark
  decide

/-! ## the tail of a number -/

/-- digits, or digits with a point and at least one digit more -/
inductive NumberTail : List Char → Prop where
  | whole {ds : List Char} (hds : ∀ c ∈ ds, c.isDigit = true) : NumberTail ds
  | decimal {ds es : List Char} (hds : ∀ c ∈ ds, c.isDigit = true) (hne : es ≠ [])
      (hes : ∀ c ∈ es, c.isDigit = true) : NumberTail (ds ++ '.' :: es)

theorem NumberTail.digit_or_point {tail : List Char} (ht : NumberTail tail) :
    ∀ c ∈ tail, c.isDigit = true ∨ c = '.' := by
  intro c hc
  cases ht with
  | whole hds => exact .inl (hds c hc)
  | decimal hds _ hes =>
    rcases List.mem_append.mp hc with hc | hc
    · exact .inl (hds c hc)
    · rcases List.mem_cons.mp hc with hc | hc
      · exact .inr hc
      · exact .inl (hes c hc)

theorem NumberTail.not_isBlank {tail : List Char} (ht : NumberTail tail) :
    ∀ c ∈ tail, Text.isBlank c = false := by
  intro c hc
  rcases ht.digit_or_point c hc with hdigit | rfl
  · exact Text.not_isBlank_of_isDigit hdigit
  · decide

theorem numberTail_numberTail (cs : List Char) : NumberTail (numberTail cs) := by
  have hds : ∀ c ∈ cs.takeWhile Char.isDigit, c.isDigit = true := fun c => List.mem_takeWhile_imp
  unfold numberTail
  split
  · rename_i r _
    split
    · rw [List.append_nil]
      exact .whole hds
    · rename_i hne
      exact .decimal hds hne fun c => List.mem_takeWhile_imp
  · rw [List.append_nil]
    exact .whole hds

theorem numberTail_isPrefix (cs : List Char) : numberTail cs <+: cs := by
  have hcs := List.takeWhile_append_dropWhile (p := Char.isDigit) (l := cs)
  unfold numberTail
  split
  · rename_i r hr
    split
    · rw [List.append_nil]
      exact List.takeWhile_prefix _
    · conv => rhs; rw [← hcs, hr]
      rw [List.prefix_append_right_inj, List.cons_prefix_cons]
      exact ⟨rfl, List.takeWhile_prefix _⟩
  · rw [List.append_nil]
    exact List.takeWhile_prefix _

theorem numberTail_of_digits {ds rest : List Char} (hds : ∀ c ∈ ds, c.isDigit = true)
    (h : EndsRun rest) : numberTail (ds ++ rest) = ds := by
  unfold numberTail
  rw [takeWhile_run hds h.no_digit, dropWhile_run hds h.no_digit]
  split
  · rename_i r
    exact absurd rfl (h.no_point r)
  · exact List.append_nil ds

theorem numberTail_of_point {ds r : List Char} (hds : ∀ c ∈ ds, c.isDigit = true)
    (hr : r.takeWhile Char.isDigit ≠ []) :
    numberTail (ds ++ '.' :: r) = ds ++ '.' :: r.takeWhile Char.isDigit := by
  have hpoint : ∀ x ∈ ('.' :: r).head?, Char.isDigit x = false := by
    intro x hx
    obtain rfl := Option.some.inj hx
    decide
  unfold numberTail
  rw [takeWhile_run hds hpoint, dropWhile_run hds hpoint]
  show ds ++ (if r.takeWhile Char.isDigit = [] then [] else '.' :: r.takeWhile Char.isDigit) = _
  rw [if_neg hr]

theorem NumberTail.numberTail_append {tail rest : List Char} (ht : NumberTail tail)
    (h : EndsRun rest) : numberTail (tail ++ rest) = tail := by
  cases ht with
  | whole hds => exact numberTail_of_digits hds h
  | @decimal ds es hds hne hes =>
    have htake : (es ++ rest).takeWhile Char.isDigit = es := takeWhile_run hes h.no_digit
    rw [List.append_assoc, List.cons_append, numberTail_of_point hds (htake.symm ▸ hne), htake]

theorem takeWhile_isPrefix_numberTail (cs : List Char) :
    cs.takeWhile Char.isDigit <+: numberTail cs :=
  List.prefix_append _ _

/-- a run of word letters has no point in it, so a number in it has none -/
theorem numberTail_of_wordLetters {tail rest : List Char}
    (ht : ∀ c ∈ tail, isWordLetter c = true) (h : EndsRun rest) :
    numberTail (tail ++ rest) = tail.takeWhile Char.isDigit := by
  have hpoint : ∀ r, tail.dropWhile Char.isDigit ++ rest ≠ '.' :: r := by
    intro r hr
    cases hd : tail.dropWhile Char.isDigit with
    | nil =>
      rw [hd] at hr
      exact h.no_point r hr
    | cons x xs =>
      rw [hd, List.cons_append] at hr
      obtain ⟨rfl, _⟩ := List.cons.inj hr
      exact point_not_mem_of_wordLetters ht
        ((List.dropWhile_suffix _).subset (hd ▸ List.mem_cons_self))
  unfold numberTail
  rw [takeWhile_append_of_head h.no_digit, dropWhile_append_of_head h.no_digit]
  split
  · rename_i r hr
    exact absurd hr (hpoint r)
  · exact List.append_nil _

/-! ## one lexeme -/

theorem lexemeAt_isPrefix (c : Char) (cs : List Char) : (lexemeAt c cs).2 <+: cs := by
  unfold lexemeAt
  split
  · exact List.nil_prefix
  · split
    · exact numberTail_isPrefix cs
    · exact List.takeWhile_prefix _

theorem not_isBlank_of_mem_lexemeAt {c : Char} {cs : List Char} {x : Char}
    (h : x ∈ (lexemeAt c cs).2) : Text.isBlank x = false := by
  unfold lexemeAt at h
  split at h
  · cases h
  · split at h
    · exact (numberTail_numberTail cs).not_isBlank x h
    · exact not_isBlank_of_isWordLetter (List.mem_takeWhile_imp h)

/-- **A lexeme on its own is the longest match again**, of the same kind: what stood behind it was
only there to end it. -/
theorem lexemeAt_of_blank {c : Char} {k : LexemeKind} {tail rest rest' : List Char}
    (h : lexemeAt c (tail ++ rest) = (k, tail)) (hrest : EndsRun rest') :
    lexemeAt c (tail ++ rest') = (k, tail) := by
  unfold lexemeAt at h ⊢
  by_cases hmark : isMark c = true
  · rw [if_pos hmark] at h ⊢
    exact h
  · rw [if_neg hmark] at h ⊢
    have hword := takeWhile_append_of_head hrest.no_wordLetter tail
    split at h
    · rename_i hnumber
      obtain ⟨rfl, htail⟩ := Prod.mk.inj h
      have hsame : numberTail (tail ++ rest') = tail :=
        (htail ▸ numberTail_numberTail (tail ++ rest)).numberTail_append hrest
      have hshort : ((tail ++ rest').takeWhile isWordLetter).length ≤ tail.length := by
        rw [hword]
        exact (List.takeWhile_prefix _).length_le
      rw [hsame, if_pos ⟨hnumber.1, hshort⟩]
    · rename_i hnumber
      obtain ⟨rfl, htail⟩ := Prod.mk.inj h
      have hletters : ∀ x ∈ tail, isWordLetter x = true := fun x hx =>
        List.mem_takeWhile_imp (htail.symm ▸ hx)
      have hsame : (tail ++ rest').takeWhile isWordLetter = tail := by
        rw [hword, List.takeWhile_eq_self_iff.mpr hletters]
      -- the digits in front are no more than before, so no number is as long as the word
      have hdigits : tail.takeWhile Char.isDigit <+: numberTail (tail ++ rest) :=
        (takeWhile_isPrefix_append Char.isDigit tail rest).trans
          (takeWhile_isPrefix_numberTail (tail ++ rest))
      rw [numberTail_of_wordLetters hletters hrest, hsame, if_neg]
      rintro ⟨hdigit, hle⟩
      rw [htail] at hnumber
      exact hnumber ⟨hdigit, hle.trans hdigits.length_le⟩

/-! ## the whole text -/

inductive Cut : Nat → Nat → List Char → List Lexeme → Prop where
  | nil (i o : Nat) : Cut i o [] []
  | blank {i o : Nat} {c : Char} {cs : List Char} {ls : List Lexeme} (hc : Text.isBlank c = true)
      (h : Cut i (o + c.utf8Size) cs ls) : Cut i o (c :: cs) ls
  | lexeme {i o : Nat} {c : Char} {k : LexemeKind} {tail rest : List Char} {ls : List Lexeme}
      (hc : Text.isBlank c = false) (hl : lexemeAt c (tail ++ rest) = (k, tail))
      (h : Cut (i + 1) (o + byteLength (c :: tail)) rest ls) :
      Cut i o (c :: (tail ++ rest))
        (⟨String.ofList (c :: tail), k, i, o, o + byteLength (c :: tail)⟩ :: ls)

theorem cut_segmentFrom (i o : Nat) (cs : List Char) : Cut i o cs (segmentFrom i o cs) := by
  induction i, o, cs using segmentFrom.induct with
  | case1 i o =>
    rw [segmentFrom_nil]
    exact .nil i o
  | case2 i o c cs hc ih =>
    rw [segmentFrom, if_pos hc]
    exact .blank hc ih
  | case3 i o c cs hc l stop ih =>
    rw [segmentFrom, if_neg hc]
    obtain ⟨rest, hrest⟩ := lexemeAt_isPrefix c cs
    have hdrop : cs.drop l.2.length = rest := by
      rw [← hrest]
      exact List.drop_left
    rw [hdrop] at ih
    have hl : lexemeAt c (l.2 ++ rest) = (l.1, l.2) := by
      rw [hrest]
    have hcut := Cut.lexeme (Bool.eq_false_iff.mpr hc) hl ih
    rw [hrest] at hcut
    dsimp only
    rw [hdrop]
    exact hcut

theorem Cut.segmentFrom_eq {i o : Nat} {cs : List Char} {ls : List Lexeme} (h : Cut i o cs ls) :
    segmentFrom i o cs = ls := by
  induction h with
  | nil i o => exact segmentFrom_nil i o
  | blank hc _ ih => rw [segmentFrom, if_pos hc, ih]
  | @lexeme i o c k tail rest ls hc hl _ ih =>
    rw [segmentFrom, if_neg (Bool.eq_false_iff.mp hc)]
    dsimp only
    rw [hl]
    dsimp only
    rw [List.drop_left, ih]

/-- the lexeme begins behind `u` and has the character `x` of the text, which stands between
`before` and `after` -/
inductive Lexeme.Covers (o : Nat) (before : List Char) (x : Char) (after : List Char)
    (l : Lexeme) : Prop where
  | intro (u p q v : List Char) (hbefore : before = u ++ p) (hafter : after = q ++ v)
      (htext : l.text = String.ofList (p ++ x :: q)) (hstart : l.start = o + byteLength u)

/-- a lexeme without its place in the text -/
def Lexeme.core (l : Lexeme) : String × LexemeKind × Nat := (l.text, l.kind, l.index)

namespace Cut

variable {i o : Nat} {cs : List Char} {ls : List Lexeme}

/-! ### the characters of lexemes -/

theorem exists_text (h : Cut i o cs ls) : ∀ l ∈ ls, ∃ c tail, l.text = String.ofList (c :: tail) ∧
    ∀ x ∈ c :: tail, Text.isBlank x = false ∧ x ∈ cs := by
  induction h with
  | nil => exact fun _ hl => nomatch hl
  | blank _ _ ih =>
    intro l hl
    obtain ⟨c, tail, htext, hchars⟩ := ih l hl
    exact ⟨c, tail, htext, fun x hx => ⟨(hchars x hx).1, List.mem_cons_of_mem _ (hchars x hx).2⟩⟩
  | @lexeme i o c k tail rest ls hc hl _ ih =>
    have hin : ∀ x ∈ rest, x ∈ c :: (tail ++ rest) := fun x hx =>
      List.mem_cons_of_mem _ (List.mem_append_right _ hx)
    refine List.forall_mem_cons.mpr ⟨⟨c, tail, rfl, List.forall_mem_cons.mpr ⟨⟨hc, ?_⟩, ?_⟩⟩, ?_⟩
    · exact List.mem_cons_self
    · intro x hx
      have hmem : x ∈ (lexemeAt c (tail ++ rest)).2 := by
        rw [hl]
        exact hx
      exact ⟨not_isBlank_of_mem_lexemeAt hmem, List.mem_cons_of_mem _ (List.mem_append_left _ hx)⟩
    · intro l hl
      obtain ⟨d, tail, htext, hchars⟩ := ih l hl
      exact ⟨d, tail, htext, fun x hx => ⟨(hchars x hx).1, hin x (hchars x hx).2⟩⟩

/-! ### spans -/

theorem start_ge (h : Cut i o cs ls) : ∀ l ∈ ls, o ≤ l.start := by
  induction h with
  | nil => exact fun _ hl => nomatch hl
  | blank _ _ ih => exact fun l hl => (Nat.le_add_right _ _).trans (ih l hl)
  | lexeme _ _ _ ih =>
    exact List.forall_mem_cons.mpr
      ⟨Nat.le_refl _, fun l hl => (Nat.le_add_right _ _).trans (ih l hl)⟩

theorem stop_eq (h : Cut i o cs ls) :
    ∀ l ∈ ls, l.stop = l.start + byteLength l.text.toList := by
  induction h with
  | nil => exact fun _ hl => nomatch hl
  | blank _ _ ih => exact ih
  | lexeme _ _ _ ih =>
    refine List.forall_mem_cons.mpr ⟨?_, ih⟩
    rw [String.toList_ofList]

theorem spans_apart (h : Cut i o cs ls) : ls.Pairwise fun l m => l.stop ≤ m.start := by
  induction h with
  | nil => exact .nil
  | blank _ _ ih => exact ih
  | lexeme _ _ h ih => exact .cons h.start_ge ih

/-- **Each character that is no blank lies in a lexeme**, and what the lexemes in front of that one
are made of comes before the character. -/
theorem exists_covers {before after : List Char} {x : Char} (h : Cut i o (before ++ x :: after) ls)
    (hx : Text.isBlank x = false) :
    ∃ left l right, ls = left ++ l :: right ∧ l.index = i + left.length ∧
      l.Covers o before x after ∧ ∀ m ∈ left, ∀ y ∈ m.text.toList, y ∈ before := by
  generalize hcs : before ++ x :: after = cs at h
  induction h generalizing before with
  | nil => simp at hcs
  | @blank i o c cs ls hc _ ih =>
    cases before with
    | nil =>
      obtain ⟨rfl, _⟩ := List.cons.inj hcs
      rw [hc] at hx
      cases hx
    | cons b before =>
      obtain ⟨rfl, hrest⟩ := List.cons.inj hcs
      obtain ⟨left, l, right, hls, hindex, ⟨u, p, q, v, hu, hv, htext, hstart⟩, hleft⟩ := ih hrest
      refine ⟨left, l, right, hls, hindex, ⟨b :: u, p, q, v, ?_, hv, htext, ?_⟩, fun m hm y hy =>
        List.mem_cons_of_mem _ (hleft m hm y hy)⟩
      · rw [hu, List.cons_append]
      · rw [hstart, byteLength, byteLength, total_cons, Nat.add_assoc]
  | @lexeme i o c k tail rest ls hc hl h ih =>
    -- the character lies behind this lexeme, or in it
    have hbehind : ∀ as, before = c :: tail ++ as → as ++ x :: after = rest →
        ∃ left l right, (⟨String.ofList (c :: tail), k, i, o, o + byteLength (c :: tail)⟩ :: ls) =
          left ++ l :: right ∧ l.index = i + left.length ∧ l.Covers o before x after ∧
          ∀ m ∈ left, ∀ y ∈ m.text.toList, y ∈ before := by
      intro as hbefore hrest
      obtain ⟨left, l, right, rfl, hindex, ⟨u, p, q, v, hu, hv, htext, hstart⟩, hleft⟩ := ih hrest
      refine ⟨_ :: left, l, right, rfl, ?_, ⟨c :: tail ++ u, p, q, v, ?_, hv, htext, ?_⟩,
        List.forall_mem_cons.mpr ⟨fun y hy => ?_, fun m hm y hy => ?_⟩⟩
      · rw [hindex, List.length_cons]
        omega
      · rw [hbefore, hu, List.append_assoc]
      · rw [hstart, byteLength, byteLength, byteLength, total_append, Nat.add_assoc]
      · rw [String.toList_ofList] at hy
        exact hbefore ▸ List.mem_append_left _ hy
      · exact hbefore ▸ List.mem_append_right _ (hleft m hm y hy)
    rw [← List.cons_append] at hcs
    rcases List.append_eq_append_iff.mp hcs with ⟨bs, htext, hafter⟩ | ⟨as, hbefore, hrest⟩
    · cases bs with
      | nil =>
        refine hbehind [] ?_ ?_
        · rw [htext, List.append_nil, List.append_nil]
        · exact hafter
      | cons y q =>
        obtain ⟨rfl, hq⟩ := List.cons.inj hafter
        exact ⟨[], _, ls, rfl, rfl, ⟨[], before, q, rest, rfl, hq,
          congrArg String.ofList htext, rfl⟩, fun _ hm => nomatch hm⟩
    · exact hbehind as hbefore hrest.symm

theorem contains_of_covers (h : Cut i o cs ls) {l : Lexeme} (hl : l ∈ ls) {before after : List Char}
    {x : Char} (hcovers : l.Covers o before x after) :
    l.start ≤ o + byteLength before ∧ o + byteLength before < l.stop := by
  have hstop := h.stop_eq l hl
  obtain ⟨u, p, q, v, rfl, _, htext, hstart⟩ := hcovers
  have hx := Char.utf8Size_pos x
  rw [htext, String.toList_ofList] at hstop
  simp only [byteLength, total_append, total_cons] at hstop hstart ⊢
  omega

theorem covers_unique (h : Cut i o cs ls) {before after : List Char} {x : Char} {l m : Lexeme}
    (hl : l ∈ ls) (hm : m ∈ ls) (hcl : l.Covers o before x after)
    (hcm : m.Covers o before x after) : m = l := by
  have happart : ls.Pairwise fun l m => l.stop ≤ m.start ∨ m.stop ≤ l.start :=
    h.spans_apart.imp Or.inl
  have : Std.Symm fun l m : Lexeme => l.stop ≤ m.start ∨ m.stop ≤ l.start :=
    ⟨fun _ _ h => h.symm⟩
  have hspan := h.contains_of_covers hl hcl
  have hspan' := h.contains_of_covers hm hcm
  by_contra hne
  rcases happart.forall hm hl hne with hlt | hlt <;> omega

/-! ### cutting again -/

/-- the texts of the lexemes with a space between them are cut into the same lexemes again -/
theorem joined (h : Cut i o cs ls) (o' : Nat) :
    ∃ ls', Cut i o' (Text.joined " " (ls.map (·.text))).toList ls' ∧
      ls'.map Lexeme.core = ls.map Lexeme.core := by
  induction h generalizing o' with
  | nil i o => exact ⟨[], .nil i o', rfl⟩
  | blank _ _ ih => exact ih o'
  | @lexeme i o c k tail rest ls hc hl _ ih =>
    have hagain : ∀ rest', EndsRun rest' → ∀ ls',
        Cut (i + 1) (o' + byteLength (c :: tail)) rest' ls' →
        ls'.map Lexeme.core = ls.map Lexeme.core →
        ∃ ls'', Cut i o' (c :: (tail ++ rest')) ls'' ∧
          ls''.map Lexeme.core = (String.ofList (c :: tail), k, i) :: ls.map Lexeme.core :=
      fun rest' hrest ls' hcut hcore =>
        ⟨_, .lexeme hc (lexemeAt_of_blank hl hrest) hcut, congrArg (List.cons _) hcore⟩
    cases ls with
    | nil =>
      have htext : (String.ofList (c :: tail)).toList = c :: (tail ++ []) := by
        rw [String.toList_ofList, List.append_nil]
      rw [List.map_singleton, Text.joined_singleton, htext]
      exact hagain [] endsRun_nil [] (.nil _ _) rfl
    | cons m ls =>
      obtain ⟨ls', hcut, hcore⟩ := ih (o' + byteLength (c :: tail) + ' '.utf8Size)
      have htext : (Text.joined " " (String.ofList (c :: tail) :: m.text :: ls.map (·.text))).toList
          = c :: (tail ++ ' ' :: (Text.joined " " ((m :: ls).map (·.text))).toList) := by
        rw [Text.joined_cons_cons, String.toList_append, String.toList_append,
          String.toList_ofList, List.append_assoc]
        rfl
      rw [List.map_cons, List.map_cons, htext]
      exact hagain _ (endsRun_space _) ls' (.blank (by decide) hcut) hcore

end Cut

theorem chars_of_mem_segment {s : String} {l : Lexeme} (hl : l ∈ segment s) :
    l.text.toList ≠ [] ∧ ∀ x ∈ l.text.toList, Text.isBlank x = false ∧ x ∈ s.toList := by
  obtain ⟨c, tail, htext, hchars⟩ := (cut_segmentFrom 0 0 s.toList).exists_text l hl
  rw [htext, String.toList_ofList]
  exact ⟨List.cons_ne_nil _ _, hchars⟩

/-- **Segmentation depends only on the lexemes**: cutting their texts, with a space between them,
gives the same texts, kinds and indices. -/
theorem core_segment_joined (s : String) :
    (segment (Text.joined " " ((segment s).map (·.text)))).map Lexeme.core =
      (segment s).map Lexeme.core := by
  obtain ⟨ls, hcut, hcore⟩ := (cut_segmentFrom 0 0 s.toList).joined 0
  rw [segment, segment, hcut.segmentFrom_eq]
  exact hcore

/-- a second point ends the number, and a letter makes digits a word -/
example : (segment "1.2.3a").map (·.text) = ["1.2", ".", "3a"] := by decide +kernel

end SpanishSyntax.Lexicon
