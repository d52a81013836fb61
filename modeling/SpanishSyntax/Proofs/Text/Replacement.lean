/-!
# Characters replaced in turn

To replace a character in a text is to search for it: the search passes from one position to the
next, over the character or over a stretch without it, and the one who replaces writes the new text
or copies the stretch.  What is written from a position on is thus what stands behind the position,
character by character (`foldl_replaceStep`, by induction on the search).

Replacing a second character then goes through the text that the first one left, with what was put
there.  It leaves that alone if the second character does not occur in it, and if this holds of each
pair and all later ones, the replacements in turn are one substitution.

* `substitute pairs`        the text of the first pair for a character, or the character itself;
* `toList_replace`          one replacement is the substitution of its pair;
* `toList_replaceInTurn`    replacements in turn are one substitution, if no text holds a character
                            that is replaced later.
-/

namespace SpanishSyntax.Text

open String.Slice.Pattern (SearchStep ToForwardSearcher)
open String.Slice.Pattern.Model

def substitute : List (Char × String) → Char → List Char
  | [], c => [c]
  | (old, new) :: pairs, c => if c = old then new.toList else substitute pairs c

theorem substitute_self (old : Char) (new : String) (pairs : List (Char × String)) :
    substitute ((old, new) :: pairs) old = new.toList := if_pos rfl

theorem substitute_cons_of_ne {c old : Char} (h : c ≠ old) (new : String)
    (pairs : List (Char × String)) : substitute ((old, new) :: pairs) c = substitute pairs c :=
  if_neg h

theorem substitute_cases (pairs : List (Char × String)) (c : Char) :
    (∃ pair ∈ pairs, c = pair.1 ∧ substitute pairs c = pair.2.toList) ∨
      ((∀ pair ∈ pairs, c ≠ pair.1) ∧ substitute pairs c = [c]) := by
  induction pairs with
  | nil => exact .inr ⟨List.forall_mem_nil _, rfl⟩
  | cons pair pairs ih =>
    by_cases hpair : c = pair.1
    · exact .inl ⟨pair, List.mem_cons_self, hpair, if_pos hpair⟩
    · rw [substitute_cons_of_ne hpair]
      rcases ih with ⟨found, hfound, htext⟩ | ⟨hpairs, hitself⟩
      · exact .inl ⟨found, List.mem_cons_of_mem _ hfound, htext⟩
      · exact .inr ⟨List.forall_mem_cons.mpr ⟨hpair, hpairs⟩, hitself⟩

theorem substitute_of_forall_ne {pairs : List (Char × String)} {c : Char}
    (h : ∀ pair ∈ pairs, c ≠ pair.1) : substitute pairs c = [c] := by
  rcases substitute_cases pairs c with ⟨pair, hpair, hc, _⟩ | ⟨_, hitself⟩
  · exact absurd hc (h pair hpair)
  · exact hitself

theorem flatMap_substitute_of_notMem {pairs : List (Char × String)} {cs : List Char}
    (h : ∀ pair ∈ pairs, pair.1 ∉ cs) : cs.flatMap (substitute pairs) = cs := by
  induction cs with
  | nil => rfl
  | cons c cs ih =>
    have hc : ∀ pair ∈ pairs, c ≠ pair.1 := by
      intro pair hpair heq
      exact h pair hpair (heq ▸ List.mem_cons_self)
    have hcs : ∀ pair ∈ pairs, pair.1 ∉ cs := by
      intro pair hpair hmem
      exact h pair hpair (List.mem_cons_of_mem _ hmem)
    rw [List.flatMap_cons, substitute_of_forall_ne hc, ih hcs, List.singleton_append]

/-! ## one character -/

section

variable {s : String.Slice} {old : Char} {new : String}

/-- what is written when the search goes on -/
def replaceStep (s : String.Slice) (new text : String) : SearchStep s → String
  | .matched _ _ => text ++ new.toSlice
  | .rejected start stop => text ++ s.slice! start stop

theorem toList_replaceStep_matched (text : String) (start stop : s.Pos) :
    (replaceStep s new text (.matched start stop)).toList = text.toList ++ new.toList := by
  rw [replaceStep, String.appendSlice_eq, String.copy_toSlice, String.toList_append]

theorem toList_replaceStep_rejected (text : String) {start stop : s.Pos} (hle : start ≤ stop) :
    (replaceStep s new text (.rejected start stop)).toList =
      text.toList ++ (s.slice start stop hle).copy.toList := by
  rw [replaceStep, ← String.Slice.slice_eq_slice! (h := hle), String.appendSlice_eq,
    String.toList_append]

theorem notMem_of_no_match {start stop : s.Pos} (hle : start ≤ stop)
    (h : ∀ pos : s.Pos, start ≤ pos → pos < stop → ¬MatchesAt old pos) :
    old ∉ (s.slice start stop hle).copy.toList := by
  intro hmem
  obtain ⟨pos, hne, hget⟩ := String.Slice.mem_toList_copy_iff_exists_get.mp hmem
  have hbefore : String.Slice.Pos.ofSlice pos < stop := by
    have hlt := String.Slice.Pos.ofSlice_lt_ofSlice_iff.mpr ((pos.lt_endPos_iff).mpr hne)
    rwa [String.Slice.Pos.ofSlice_endPos] at hlt
  have hmatch : MatchesAt old (String.Slice.Pos.ofSlice pos) :=
    Char.matchesAt_iff.mpr ⟨String.Slice.Pos.ne_endPos_of_lt hbefore,
      String.Slice.Pos.get_eq_get_ofSlice.symm.trans hget⟩
  exact h _ String.Slice.Pos.le_ofSlice hbefore hmatch

theorem foldl_replaceStep {pos : s.Pos} {steps : List (SearchStep s)}
    (h : IsValidSearchFrom old pos steps) {before behind : String} (hpos : pos.Splits before behind)
    (text : String) : (steps.foldl (replaceStep s new) text).toList =
      text.toList ++ behind.toList.flatMap (substitute [(old, new)]) := by
  induction h generalizing before behind text with
  | endPos =>
    rw [(String.Slice.splits_endPos_iff.mp hpos).2]
    exact (List.append_nil _).symm
  | matched hmatch _ ih =>
    obtain ⟨hne, rfl, hget⟩ := Char.isLongestMatchAt_iff.mp hmatch
    obtain ⟨rest, rfl⟩ := hpos.exists_eq_singleton_append hne
    rw [List.foldl_cons, ih hpos.next, toList_replaceStep_matched, String.toList_append,
      String.toList_singleton, List.flatMap_append, List.flatMap_singleton, hget, substitute_self,
      List.append_assoc]
  | @mismatched _ start stop hlt hnone _ ih =>
    have hle : start ≤ stop := Std.le_of_lt hlt
    obtain ⟨front, rest, hstart, hstop⟩ := String.Slice.copy_slice_eq_iff_splits.mp ⟨hle, rfl⟩
    have hcopied : (s.slice start stop hle).copy.toList.flatMap (substitute [(old, new)]) =
        (s.slice start stop hle).copy.toList :=
      flatMap_substitute_of_notMem (List.forall_mem_singleton.mpr (notMem_of_no_match hle hnone))
    rw [hpos.eq_right hstart, List.foldl_cons, ih hstop, toList_replaceStep_rejected text hle,
      String.toList_append, List.flatMap_append, hcopied, List.append_assoc]

theorem replace_eq_foldl (s : String) (old : Char) (new : String) :
    s.replace old new =
      (ToForwardSearcher.toSearcher old s.toSlice).toList.foldl (replaceStep s.toSlice new) "" := by
  rw [String.replace, String.Slice.replace, ← Std.Iter.foldl_toList]
  refine congrArg (fun step => List.foldl step "" _) ?_
  funext text step
  cases step <;> rfl

theorem toList_replace (s : String) (old : Char) (new : String) :
    (s.replace old new).toList = s.toList.flatMap (substitute [(old, new)]) := by
  have hsearch : IsValidSearchFrom old s.toSlice.startPos
      (ToForwardSearcher.toSearcher old s.toSlice).toList :=
    LawfulToForwardSearcherModel.isValidSearchFrom_toList s.toSlice
  have hstart : s.toSlice.startPos.Splits "" s :=
    String.Slice.splits_startPos_iff.mpr ⟨rfl, String.copy_toSlice.symm⟩
  rw [replace_eq_foldl, foldl_replaceStep hsearch hstart, String.toList_empty, List.nil_append]

end

/-! ## one after the other -/

def replaceInTurn (pairs : List (Char × String)) (s : String) : String :=
  pairs.foldl (fun text pair => text.replace pair.1 pair.2) s

theorem replaceInTurn_cons (old : Char) (new : String) (pairs : List (Char × String)) (s : String) :
    replaceInTurn ((old, new) :: pairs) s = replaceInTurn pairs (s.replace old new) := rfl

/-- **Replacements in turn are one substitution**, if no text that is put in holds a character that
is replaced later. -/
theorem toList_replaceInTurn {pairs : List (Char × String)}
    (h : pairs.Pairwise fun earlier later => later.1 ∉ earlier.2.toList) (s : String) :
    (replaceInTurn pairs s).toList = s.toList.flatMap (substitute pairs) := by
  induction pairs generalizing s with
  | nil => exact (flatMap_substitute_of_notMem (List.forall_mem_nil _)).symm
  | cons pair pairs ih =>
    obtain ⟨old, new⟩ := pair
    obtain ⟨hnew, hpairs⟩ := List.pairwise_cons.mp h
    rw [replaceInTurn_cons, ih hpairs, toList_replace, List.flatMap_assoc]
    refine congrArg (s.toList.flatMap ·) (funext fun c => ?_)
    by_cases hc : c = old
    · rw [hc, substitute_self, substitute_self, flatMap_substitute_of_notMem hnew]
    · rw [substitute_cons_of_ne hc, substitute_cons_of_ne hc]
      exact List.flatMap_singleton _ _

end SpanishSyntax.Text
