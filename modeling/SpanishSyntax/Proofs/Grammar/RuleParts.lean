import Mathlib.Data.List.Basic
import SpanishSyntax.Grammar.RuleText
import SpanishSyntax.Proofs.Text.Classes
import SpanishSyntax.Proofs.Text.Runs

/-!
# The parts of a rule line

A rule has a head, a gap, an arrow, a body and perhaps a comment, each a run of characters of its
own class.  `RuleLine.Parts` cuts a line so, and the reader finds these parts and no others
(`RuleLine.exists_parts`, `RuleLine.Parts.read_eq`).
-/

namespace SpanishSyntax

namespace RuleLine

/-! ## symbol characters -/

theorem not_isBlank_of_isSymbolChar {c : Char} (h : isSymbolChar c = true) :
    Text.isBlank c = false := by
  simp only [isSymbolChar, Bool.or_eq_true, beq_iff_eq] at h
  rcases h with (h | rfl) | rfl
  · exact Text.not_isBlank_of_isAlphanumeric h
  · decide
  · decide

theorem not_isSymbolChar_of_isGap {c : Char} (h : isGap c = true) : isSymbolChar c = false := by
  rw [Bool.eq_false_iff]
  intro hc
  have hblank := not_isBlank_of_isSymbolChar hc
  simp only [isGap, Bool.or_eq_true, beq_iff_eq] at h
  rcases h with rfl | rfl
  · revert hblank
    decide
  · revert hblank
    decide

theorem not_isGap_of_isSymbolChar {c : Char} (h : isSymbolChar c = true) : isGap c = false := by
  rw [Bool.eq_false_iff]
  intro hgap
  rw [not_isSymbolChar_of_isGap hgap] at h
  cases h

theorem ne_bar_of_isSymbolChar {c : Char} (h : isSymbolChar c = true) : (c == '|') = false := by
  rw [beq_eq_false_iff_ne]
  rintro rfl
  revert h
  decide +kernel

/-- what can be read as the name of a symbol -/
def IsName (n : String) : Prop := n.toList ≠ [] ∧ ∀ c ∈ n.toList, isSymbolChar c = true

theorem isName_ofList {cs : List Char} (hne : cs ≠ []) (h : ∀ c ∈ cs, isSymbolChar c = true) :
    IsName (String.ofList cs) := by
  rw [IsName, String.toList_ofList]
  exact ⟨hne, h⟩

instance (n : String) : Decidable (IsName n) :=
  decidable_of_iff (n.toList ≠ [] ∧ n.toList.all isSymbolChar = true) (by
    rw [List.all_eq_true, IsName])

theorem isName_epsilon : IsName "ε" := by
  have hchar : isSymbolChar 'ε' = true := by decide +kernel
  refine ⟨by decide, fun c hc => ?_⟩
  rw [List.mem_singleton.mp hc]
  exact hchar

theorem isSymbolChar_hash : isSymbolChar '#' = false := by decide +kernel

theorem isBodyChar_hash : isBodyChar '#' = false := by
  rw [isBodyChar, isSymbolChar_hash]
  rfl

theorem IsName.no_gap {n : String} (h : IsName n) : ∀ c ∈ n.toList, isGap c = false := fun c hc =>
  not_isGap_of_isSymbolChar (h.2 c hc)

/-! ## parts -/

/-- spaces and tabs, or nothing -/
def Gap (cs : List Char) : Prop := ∀ c ∈ cs, isGap c = true

def arrows : List (List Char) := [['-', '>'], ['→'], [':', ':', '=']]

theorem afterArrow_eq_ok_iff {cs body : List Char} :
    afterArrow cs = .ok body ↔ ∃ arrow ∈ arrows, cs = arrow ++ body := by
  constructor
  · intro h
    unfold afterArrow at h
    split at h
    · cases h
      exact ⟨['→'], by decide, rfl⟩
    · cases h
      exact ⟨['-', '>'], by decide, rfl⟩
    · cases h
    · cases h
      exact ⟨[':', ':', '='], by decide, rfl⟩
    · cases h
    · cases h
    · cases h
  · rintro ⟨arrow, harrow, rfl⟩
    simp only [arrows, List.mem_cons, List.not_mem_nil, or_false] at harrow
    rcases harrow with rfl | rfl | rfl <;> rfl

theorem ne_nil_of_mem_arrows {arrow : List Char} (h : arrow ∈ arrows) : arrow ≠ [] := by
  rintro rfl
  revert h
  decide

theorem not_isSymbolChar_of_mem_arrows {arrow : List Char} (h : arrow ∈ arrows) :
    ∀ c ∈ arrow.head?, isSymbolChar c = false ∧ isGap c = false := by
  have hminus : isSymbolChar '-' = false := by decide +kernel
  have hcolon : isSymbolChar ':' = false := by decide +kernel
  have harrow : isSymbolChar '→' = false := by decide +kernel
  simp only [arrows, List.mem_cons, List.not_mem_nil, or_false] at h
  intro c hc
  rcases h with rfl | rfl | rfl <;> obtain rfl := Option.some.inj hc
  · exact ⟨hminus, by rfl⟩
  · exact ⟨harrow, by rfl⟩
  · exact ⟨hcolon, by rfl⟩

/-- an arrow ends with a character that is no blank -/
theorem exists_arrow_eq_concat {arrow : List Char} (h : arrow ∈ arrows) :
    ∃ front c, arrow = front ++ [c] ∧ Text.isBlank c = false := by
  simp only [arrows, List.mem_cons, List.not_mem_nil, or_false] at h
  rcases h with rfl | rfl | rfl
  · exact ⟨['-'], '>', rfl, by decide⟩
  · exact ⟨[], '→', rfl, by decide⟩
  · exact ⟨[':', ':'], '=', rfl, by decide⟩

/-- the parts in which a reader finds a rule -/
structure Parts (cs : List Char) (head : String) (alts : List (List String))
    (gap arrow body tail : List Char) : Prop where
  split : cs = head.toList ++ (gap ++ (arrow ++ (body ++ tail)))
  isName_head : IsName head
  gap_gap : Gap gap
  arrow_mem : arrow ∈ arrows
  body_chars : ∀ c ∈ body, isBodyChar c = true
  alts_eq : alts = alternativesOf body
  tail_eq : tail = [] ∨ ∃ comment, tail = '#' :: comment

theorem exists_parts {cs : List Char} {head : String} {alts : List (List String)}
    (h : read cs = .ok (head, alts)) :
    ∃ gap arrow body tail, Parts cs head alts gap arrow body tail := by
  unfold read at h
  cases hname : cs.takeWhile isSymbolChar with
  | nil =>
    rw [hname] at h
    cases h
  | cons c name =>
    rw [hname] at h
    dsimp only at h
    cases harrow : afterArrow ((cs.dropWhile isSymbolChar).dropWhile isGap) with
    | error f =>
      rw [harrow] at h
      cases h
    | ok after =>
      rw [harrow] at h
      obtain ⟨arrow, hmem, hafter⟩ := afterArrow_eq_ok_iff.mp harrow
      have hok : (after.dropWhile isBodyChar = [] ∨
          ∃ comment, after.dropWhile isBodyChar = '#' :: comment) ∧
          (String.ofList (c :: name), alternativesOf (after.takeWhile isBodyChar)) =
            (head, alts) := by
        dsimp only at h
        split at h
        · rename_i hnil
          exact ⟨.inl hnil, Except.ok.inj h⟩
        · rename_i comment hcomment
          exact ⟨.inr ⟨comment, hcomment⟩, Except.ok.inj h⟩
        · cases h
      obtain ⟨htail, hok⟩ := hok
      obtain ⟨rfl, rfl⟩ := Prod.mk.inj hok
      refine ⟨(cs.dropWhile isSymbolChar).takeWhile isGap, arrow, after.takeWhile isBodyChar,
        after.dropWhile isBodyChar, ?_, ?_, fun d hd => List.mem_takeWhile_imp hd, hmem,
        fun d hd => List.mem_takeWhile_imp hd, rfl, htail⟩
      · rw [List.takeWhile_append_dropWhile, ← hafter, List.takeWhile_append_dropWhile,
          String.toList_ofList, ← hname, List.takeWhile_append_dropWhile]
      · exact isName_ofList (List.cons_ne_nil _ _) fun d hd => List.mem_takeWhile_imp (hname ▸ hd)

section
variable {cs gap arrow body tail : List Char} {head : String} {alts : List (List String)}

theorem Parts.read_eq (h : Parts cs head alts gap arrow body tail) :
    read cs = .ok (head, alts) := by
  have hstop := not_isSymbolChar_of_mem_arrows h.arrow_mem
  obtain ⟨first, arrow', harrow⟩ := List.exists_cons_of_ne_nil (ne_nil_of_mem_arrows h.arrow_mem)
  have hfirst := hstop first (harrow ▸ rfl)
  -- the head ends at the gap, the gap at the arrow, and the body at its end or at a comment
  have hname : ∀ c ∈ (gap ++ (arrow ++ (body ++ tail))).head?, isSymbolChar c = false := by
    intro c hc
    cases gap with
    | nil =>
      rw [harrow] at hc
      obtain rfl := Option.some.inj hc
      exact hfirst.1
    | cons d gap =>
      obtain rfl := Option.some.inj hc
      exact not_isSymbolChar_of_isGap (h.gap_gap _ List.mem_cons_self)
  have hgap : ∀ c ∈ (arrow ++ (body ++ tail)).head?, isGap c = false := by
    intro c hc
    rw [harrow] at hc
    obtain rfl := Option.some.inj hc
    exact hfirst.2
  have htail : ∀ c ∈ tail.head?, isBodyChar c = false := by
    intro c hc
    rcases h.tail_eq with rfl | ⟨comment, rfl⟩
    · cases hc
    · obtain rfl := Option.some.inj hc
      exact isBodyChar_hash
  have hafter : afterArrow (arrow ++ (body ++ tail)) = .ok (body ++ tail) :=
    afterArrow_eq_ok_iff.mpr ⟨arrow, h.arrow_mem, rfl⟩
  obtain ⟨c, name, hcons⟩ := List.exists_cons_of_ne_nil h.isName_head.1
  have hhead : String.ofList (c :: name) = head := by
    rw [← hcons, String.ofList_toList]
  rw [h.split]
  unfold read
  rw [Text.takeWhile_run h.isName_head.2 hname, Text.dropWhile_run h.isName_head.2 hname, hcons]
  dsimp only
  rw [Text.dropWhile_run h.gap_gap hgap, hafter]
  dsimp only
  rw [Text.takeWhile_run h.body_chars htail, Text.dropWhile_run h.body_chars htail, hhead,
    ← h.alts_eq]
  rcases h.tail_eq with rfl | ⟨comment, rfl⟩ <;> rfl

end

end RuleLine

end SpanishSyntax
