import Mathlib.Data.List.Forall2
import SpanishSyntax.Lexicon.Classifier
import SpanishSyntax.Proofs.Lexicon.Segment

/-!
# Kinds of lexemes and types of tokens

A lexeme has a kind from the segmentation, where digits are ASCII digits, and its token has a type
from the form of the text, where they are the decimal digits of every script.  `Written k cs` says
what a lexeme of the kind `k` is made of (`written_of_mem_segment`), and the form follows from it.

* `form_of_number`, `form_of_mark`, `form_of_letters`   the form of each kind;
* `Classifier.agrees_tokenize`     kind and type agree but for the words that are numerals in other
                                   digits (`ForeignNumeral`): these count as numbers that have no
                                   value;
* `foreign_numeral_is_no_number`   there are such words.
-/

namespace SpanishSyntax.Lexicon

open Text

/-! ## what a lexeme is made of -/

inductive Written : LexemeKind → List Char → Prop where
  | mark {c : Char} (hc : isMark c = true) : Written .punctuation [c]
  | number {c : Char} {tail : List Char} (hc : c.isDigit = true) (ht : NumberTail tail) :
      Written .number (c :: tail)
  | word {cs : List Char} (hne : cs ≠ []) (hletters : ∀ x ∈ cs, isWordLetter x = true)
      (hmixed : ∃ x ∈ cs, x.isDigit = false) : Written .word cs

/-- a run of word letters is a word only if some letter is no digit: else the number in it would
be as long -/
theorem exists_no_digit_of_longer {c : Char} {cs : List Char}
    (h : ¬ (c.isDigit = true ∧ (cs.takeWhile isWordLetter).length ≤ (numberTail cs).length)) :
    ∃ x ∈ c :: cs.takeWhile isWordLetter, x.isDigit = false := by
  by_contra hnone
  have hdigits : ∀ x ∈ c :: cs.takeWhile isWordLetter, x.isDigit = true := by
    intro x hx
    by_contra hno
    exact hnone ⟨x, hx, Bool.eq_false_iff.mpr hno⟩
  obtain ⟨hc, htail⟩ := List.forall_mem_cons.mp hdigits
  have hprefix : cs.takeWhile isWordLetter <+: numberTail cs :=
    (isPrefix_takeWhile (List.takeWhile_prefix _) htail).trans (takeWhile_isPrefix_numberTail cs)
  exact h ⟨hc, hprefix.length_le⟩

theorem written_lexemeAt {c : Char} (cs : List Char) (hc : isBlank c = false) :
    Written (lexemeAt c cs).1 (c :: (lexemeAt c cs).2) := by
  unfold lexemeAt
  split
  · rename_i hmark
    exact .mark hmark
  · rename_i hmark
    split
    · rename_i hnumber
      exact .number hnumber.1 (numberTail_numberTail cs)
    · rename_i hlonger
      have hfirst : isWordLetter c = true := by simp [isWordLetter, hc, hmark]
      exact .word (List.cons_ne_nil _ _)
        (List.forall_mem_cons.mpr ⟨hfirst, fun x hx => List.mem_takeWhile_imp hx⟩)
        (exists_no_digit_of_longer hlonger)

theorem Cut.written {i o : Nat} {cs : List Char} {ls : List Lexeme} (h : Cut i o cs ls) :
    ∀ l ∈ ls, Written l.kind l.text.toList := by
  induction h with
  | nil => exact fun _ hl => nomatch hl
  | blank _ _ ih => exact ih
  | @lexeme i o c k tail rest ls hc hl _ ih =>
    have hwritten := written_lexemeAt (tail ++ rest) hc
    rw [hl] at hwritten
    refine List.forall_mem_cons.mpr ⟨?_, ih⟩
    rw [String.toList_ofList]
    exact hwritten

theorem written_of_mem_segment {s : String} {l : Lexeme} (hl : l ∈ segment s) :
    Written l.kind l.text.toList :=
  (cut_segmentFrom 0 0 s.toList).written l hl

/-! ## the form of a text -/

theorem not_isDecimalDigit_of_isMark {c : Char} (h : isMark c = true) :
    isDecimalDigit c = false := by
  have hmarks : (['.', ',', ';', ':', '!', '?', '¿', '¡'].all fun c => !isDecimalDigit c) =
      true := by decide +kernel
  exact (Bool.not_eq_true' _).mp (List.all_eq_true.mp hmarks c (of_decide_eq_true h))

theorem form_of_numberForm {cs : List Char} {t : LexicalType} (h : numberForm cs = some t) :
    form cs = t := by
  unfold form
  rw [h]

theorem form_of_digits {cs : List Char} (hne : cs ≠ [])
    (h : ∀ x ∈ cs, isDecimalDigit x = true) : form cs = .int := by
  obtain ⟨c, tail, rfl⟩ := List.exists_cons_of_ne_nil hne
  refine form_of_numberForm ?_
  unfold numberForm
  rw [List.takeWhile_eq_self_iff.mpr h, List.dropWhile_eq_nil_iff.mpr h]

theorem form_of_decimal {ds es : List Char} (hds : ds ≠ []) (hes : es ≠ [])
    (hd : ∀ x ∈ ds, isDecimalDigit x = true) (he : ∀ x ∈ es, isDecimalDigit x = true) :
    form (ds ++ '.' :: es) = .float := by
  have hpoint : ∀ x ∈ ('.' :: es).head?, isDecimalDigit x = false := by
    intro x hx
    obtain rfl := Option.some.inj hx
    exact not_isDecimalDigit_of_isMark (by decide)
  obtain ⟨d, ds, rfl⟩ := List.exists_cons_of_ne_nil hds
  refine form_of_numberForm ?_
  unfold numberForm
  rw [takeWhile_run hd hpoint, dropWhile_run hd hpoint]
  exact if_pos ⟨hes, List.all_eq_true.mpr he⟩

theorem form_of_number {c : Char} {tail : List Char} (hc : c.isDigit = true)
    (ht : NumberTail tail) : form (c :: tail) = .int ∨ form (c :: tail) = .float := by
  have hdecimal : ∀ {ds : List Char}, (∀ x ∈ ds, x.isDigit = true) →
      ∀ x ∈ ds, isDecimalDigit x = true := fun h x hx => isDecimalDigit_of_isDigit (h x hx)
  cases ht with
  | whole hds =>
    exact .inl (form_of_digits (List.cons_ne_nil _ _)
      (hdecimal (List.forall_mem_cons.mpr ⟨hc, hds⟩)))
  | decimal hds hne hes =>
    exact .inr (form_of_decimal (List.cons_ne_nil _ _) hne
      (hdecimal (List.forall_mem_cons.mpr ⟨hc, hds⟩)) (hdecimal hes))

theorem form_of_mark {c : Char} (h : isMark c = true) : form [c] = .punctuation := by
  have hnumber : numberForm [c] = none := by
    simp [numberForm, not_isDecimalDigit_of_isMark h]
  simp [form, hnumber, h]

/-- a run of word letters has no point in it, so it is a numeral only if all of it is digits -/
theorem form_of_letters {cs : List Char} (hletters : ∀ x ∈ cs, isWordLetter x = true)
    (hmixed : ∃ x ∈ cs, isDecimalDigit x = false) : form cs = .identifier := by
  have hnumber : numberForm cs = none := by
    unfold numberForm
    split
    · rename_i hdrop
      obtain ⟨x, hx, hno⟩ := hmixed
      have hdigit := List.dropWhile_eq_nil_iff.mp hdrop x hx
      rw [hno] at hdigit
      cases hdigit
    · rename_i hdrop
      have hmem : '.' ∈ cs := (List.dropWhile_suffix _).subset (hdrop ▸ List.mem_cons_self)
      exact absurd hmem (point_not_mem_of_wordLetters hletters)
    · rfl
  unfold form
  rw [hnumber]
  dsimp only
  split
  · rename_i c
    rw [not_isMark_of_isWordLetter (hletters c List.mem_cons_self)]
    rfl
  · rfl

theorem isSome_constantOf_iff {cs : List Char} :
    (constantOf cs).isSome = true ↔ ∀ x ∈ cs, x.isDigit = true ∨ x = '.' := by
  have hall : (cs.all fun c => c.isDigit || c == '.') = true ↔
      ∀ x ∈ cs, x.isDigit = true ∨ x = '.' := by
    simp [List.all_eq_true]
  rw [← hall, constantOf]
  split <;> simp_all

theorem constantOf_of_letters {cs : List Char} (hletters : ∀ x ∈ cs, isWordLetter x = true)
    (hmixed : ∃ x ∈ cs, x.isDigit = false) : constantOf cs = none := by
  rw [← Option.not_isSome_iff_eq_none, isSome_constantOf_iff]
  intro h
  obtain ⟨x, hx, hno⟩ := hmixed
  rcases h x hx with hdigit | rfl
  · rw [hno] at hdigit
    cases hdigit
  · exact point_not_mem_of_wordLetters hletters hx

/-! ## kinds and types -/

/-- decimal digits, not all of them ASCII digits -/
def ForeignNumeral (cs : List Char) : Prop :=
  (∀ x ∈ cs, isDecimalDigit x = true) ∧ ∃ x ∈ cs, x.isDigit = false

/-- the type of a token and the kind of its lexeme agree, but for foreign numerals -/
structure Agrees (l : Lexeme) (t : Token) : Prop where
  numeric : t.type = .int ∨ t.type = .float ↔
    l.kind = .number ∨ l.kind = .word ∧ ForeignNumeral l.text.toList
  punctuation : t.type = .punctuation ↔ l.kind = .punctuation
  identifier : t.type = .identifier ↔ l.kind = .word ∧ ¬ ForeignNumeral l.text.toList
  constant : t.constant.isSome = true ↔ l.kind = .number

namespace Classifier

theorem type_classify (c : Classifier) (word : String) (i : Nat) :
    (c.classify word i).type = form word.toList := rfl

theorem constant_classify (c : Classifier) (word : String) (i : Nat) :
    (c.classify word i).constant =
      if form word.toList = .int ∨ form word.toList = .float then constantOf word.toList
      else none := by
  unfold classify
  dsimp only
  cases form word.toList <;> rfl

theorem agrees_classify (c : Classifier) {l : Lexeme} (h : Written l.kind l.text.toList) :
    Agrees l (c.classify l.text l.index) := by
  obtain ⟨text, kind, index, start, stop⟩ := l
  have htype := c.type_classify text index
  have hconstant := c.constant_classify text index
  dsimp only at h ⊢
  generalize htext : text.toList = cs at h htype hconstant
  cases h with
  | mark hc =>
    rw [form_of_mark hc] at htype hconstant
    constructor <;> simp [htype, hconstant]
  | number hc ht =>
    have hform := form_of_number hc ht
    have hsome : (constantOf _).isSome = true := isSome_constantOf_iff.mpr
      (List.forall_mem_cons.mpr ⟨.inl hc, ht.digit_or_point⟩)
    rw [if_pos hform] at hconstant
    rcases hform with hform | hform <;> rw [hform] at htype <;>
      constructor <;> simp [htype, hconstant, hsome]
  | word hne hletters hmixed =>
    -- some letter is no ASCII digit, but it may be a digit of another script
    by_cases hdigits : ∀ x ∈ cs, isDecimalDigit x = true
    · have hforeign : ForeignNumeral cs := ⟨hdigits, hmixed⟩
      rw [form_of_digits hne hdigits, if_pos (.inl rfl), constantOf_of_letters hletters hmixed]
        at hconstant
      rw [form_of_digits hne hdigits] at htype
      constructor <;> simp [htype, htext, hconstant, hforeign]
    · have hnative : ¬ ForeignNumeral cs := fun h => hdigits h.1
      have hform : form cs = .identifier := by
        refine form_of_letters hletters ?_
        obtain ⟨x, hx, hno⟩ := not_forall₂.mp hdigits
        exact ⟨x, hx, Bool.eq_false_iff.mpr hno⟩
      rw [hform] at htype hconstant
      constructor <;> simp [htype, htext, hconstant, hnative]

/-- **Kinds and types agree**, lexeme by lexeme, for every sentence and every classifier, but for
the words that are foreign numerals: their type is that of a number, and they have no value. -/
theorem agrees_tokenize (c : Classifier) (s : String) :
    List.Forall₂ Agrees (segment s) (c.tokenize s) := by
  unfold tokenize
  rw [List.forall₂_map_right_iff, List.forall₂_same]
  exact fun l hl => c.agrees_classify (written_of_mem_segment hl)

end Classifier

/-- no rules and an alphabet of letters only -/
def bare : Vocabulary := ⟨"abc", "", "", "sust", "num", "punt", []⟩

def bareClassifier : Classifier :=
  ⟨[], (alphabetBlueprint "abc".toList).assemble "q0", "sust", "num", "punt"⟩

/-- an Arabic three is a word for the segmentation and a number, without a value, for the
classifier -/
theorem foreign_numeral_is_no_number :
    (∀ regexes, bare.classifier regexes = .ok bareClassifier) ∧
      segment "٣" = [⟨"٣", .word, 0, 0, 2⟩] ∧
      ¬ List.Forall₂ (fun l t => t.type = .int ∨ t.type = .float ↔ l.kind = .number)
        (segment "٣") (bareClassifier.tokenize "٣") ∧
      ¬ List.Forall₂ (fun l t => t.type = .identifier ↔ l.kind = .word)
        (segment "٣") (bareClassifier.tokenize "٣") ∧
      ¬ ∀ t ∈ bareClassifier.tokenize "٣", t.type = .int → t.constant.isSome = true := by
  have hsegment : segment "٣" = [⟨"٣", .word, 0, 0, 2⟩] := by decide +kernel
  have htokens : bareClassifier.tokenize "٣" = [bareClassifier.classify "٣" 0] := by
    rw [Classifier.tokenize, hsegment]
    rfl
  have hform : form "٣".toList = .int := by decide +kernel
  have htype : (bareClassifier.classify "٣" 0).type = .int := hform
  have hconstant : (bareClassifier.classify "٣" 0).constant = none := by
    rw [Classifier.constant_classify, hform]
    decide +kernel
  rw [hsegment, htokens]
  refine ⟨fun _ => rfl, rfl, ?_, ?_, ?_⟩ <;> simp [htype, hconstant]

end SpanishSyntax.Lexicon
