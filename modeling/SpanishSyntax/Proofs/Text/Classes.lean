import SpanishSyntax.Text.Blank
import SpanishSyntax.Text.WordCharacter

/-!
# Blanks are no letters and no digits

Two classes given by ranges have no character in common when no range of the one meets a range of
the other, which is a finite comparison (`Ranges.apart`).  The ASCII letters and digits, which the
classes look up first, stand for ranges of their own.
-/

namespace SpanishSyntax.Text

def Ranges.apart (rs ss : Ranges) : Bool :=
  rs.all fun r => ss.all fun s => decide (r.2 < s.1) || decide (s.2 < r.1)

theorem Ranges.not_contains_of_apart {rs ss : Ranges} (h : rs.apart ss = true) {c : Char}
    (hc : rs.contains c = true) : ss.contains c = false := by
  obtain ⟨r, hr, hrlow, hrhigh⟩ := (Ranges.contains_iff rs c).mp hc
  rw [Bool.eq_false_iff]
  intro hs
  obtain ⟨s, hs, hslow, hshigh⟩ := (Ranges.contains_iff ss c).mp hs
  have hapart := List.all_eq_true.mp (List.all_eq_true.mp h r hr) s hs
  simp only [Bool.or_eq_true, decide_eq_true_eq] at hapart
  omega

/-! ## ASCII -/

theorem isDigit_iff (c : Char) : c.isDigit = true ↔ 48 ≤ c.toNat ∧ c.toNat ≤ 57 := by
  simp only [Char.isDigit, Bool.and_eq_true, decide_eq_true_eq, ge_iff_le, UInt32.le_iff_toNat_le]
  exact Iff.rfl

theorem contains_of_isDigit {c : Char} (h : c.isDigit = true) :
    Ranges.contains [(0x0030, 0x0039)] c = true :=
  (Ranges.contains_iff _ c).mpr ⟨_, List.mem_singleton_self _, (isDigit_iff c).mp h⟩

theorem contains_of_isAlpha {c : Char} (h : c.isAlpha = true) :
    Ranges.contains [(0x0041, 0x005A), (0x0061, 0x007A)] c = true := by
  change (decide ('A'.val ≤ c.val ∧ c.val ≤ 'Z'.val) ||
    decide ('a'.val ≤ c.val) && decide (c.val ≤ 'z'.val)) = true at h
  simp only [Bool.or_eq_true, Bool.and_eq_true, decide_eq_true_eq, UInt32.le_iff_toNat_le] at h
  refine (Ranges.contains_iff _ c).mpr ?_
  rcases h with h | h
  · exact ⟨_, List.mem_cons_self, h⟩
  · exact ⟨_, List.mem_cons_of_mem _ List.mem_cons_self, h⟩

theorem isDecimalDigit_of_isDigit {c : Char} (h : c.isDigit = true) : isDecimalDigit c = true := by
  rw [isDecimalDigit, h, Bool.true_or]

/-! ## blanks -/

theorem not_isBlank_of_isDigit {c : Char} (h : c.isDigit = true) : isBlank c = false :=
  Ranges.not_contains_of_apart (by decide) (contains_of_isDigit h)

theorem not_isBlank_of_isDecimalDigit {c : Char} (h : isDecimalDigit c = true) :
    isBlank c = false := by
  rcases Bool.or_eq_true_iff.mp h with h | h
  · exact not_isBlank_of_isDigit h
  · exact Ranges.not_contains_of_apart (by decide +kernel) h

theorem not_isBlank_of_isLetter {c : Char} (h : isLetter c = true) : isBlank c = false := by
  rcases Bool.or_eq_true_iff.mp h with h | h
  · exact Ranges.not_contains_of_apart (by decide) (contains_of_isAlpha h)
  · exact Ranges.not_contains_of_apart (by decide +kernel) h

theorem not_isBlank_of_isAlphanumeric {c : Char} (h : isAlphanumeric c = true) :
    isBlank c = false := by
  unfold isAlphanumeric at h
  rcases Bool.or_eq_true_iff.mp h with h | h
  · rcases Bool.or_eq_true_iff.mp h with h | h
    · exact not_isBlank_of_isLetter h
    · exact not_isBlank_of_isDecimalDigit h
  · exact Ranges.not_contains_of_apart (by decide +kernel) h

end SpanishSyntax.Text
