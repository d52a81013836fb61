import Mathlib.Data.List.Basic
import SpanishSyntax.Lexicon.Pattern.Reader
import SpanishSyntax.Proofs.Text.Runs

/-!
# What escapes and classes are read from

A reader of patterns takes a piece off the front of a text.  What it reads does not depend on the
text behind the piece (`Takes`), for an escape (`Escaped.takes_of_read?`) as for a class in brackets
(`CharClass.takes_of_read?`).

Inside a class a reader does look ahead: a hyphen makes a range or does not by what follows it.  It
never looks past the bracket that closes the class, so there the text may be changed behind that
bracket (`UpToBracket`).
-/

namespace SpanishSyntax.Lexicon

/-- `f` takes `pre` off every text that begins with it and reads `a` -/
def Takes {α : Type} (f : List Char → Option (α × List Char)) (pre : List Char) (a : α) : Prop :=
  ∀ r, f (pre ++ r) = some (a, r)

theorem head?_append_congr {pre r r' : List Char} (h : r.head? = r'.head?) :
    (pre ++ r).head? = (pre ++ r').head? := by
  rw [List.head?_append, List.head?_append, h]

/-! ## escapes -/

namespace Escaped

variable {cs r : List Char} {e : Escaped} {c : Char}

theorem isDigitOf_of_namedChar? {ds : List Char} (h : Text.namedChar? ds = some c) :
    ds ≠ [] ∧ ∀ d ∈ ds, Text.isDigitOf 16 d = true := by
  by_cases hds : ds ≠ [] ∧ ds.all (Text.isDigitOf 16)
  · exact ⟨hds.1, List.all_eq_true.mp hds.2⟩
  · have hnone : Text.namedChar? ds = none := if_neg hds
    rw [hnone] at h
    cases h

theorem readBraced?_closed {ds : List Char} (hds : ∀ d ∈ ds, decide (d ≠ '}') = true)
    (r : List Char) :
    readBraced? (ds ++ '}' :: r) = (Text.namedChar? ds).map fun c => (char c, r) := by
  have hend : ∀ d ∈ ('}' :: r).head?, decide (d ≠ '}') = false := by simp
  rw [readBraced?, Text.dropWhile_run hds hend, Text.takeWhile_run hds hend]

theorem readBraced?_unclosed {ds : List Char} (hds : ∀ d ∈ ds, decide (d ≠ '}') = true) :
    readBraced? ds = none := by
  rw [readBraced?, List.dropWhile_eq_nil_iff.mpr hds]

theorem takes_of_readBraced? (h : readBraced? cs = some (e, r)) :
    ∃ pre, cs = pre ++ ['}'] ++ r ∧ Takes readBraced? (pre ++ ['}']) e := by
  obtain ⟨ds, rest, rfl, hds, hrest⟩ := Text.exists_run (fun d => decide (d ≠ '}')) cs
  cases rest with
  | nil =>
    rw [List.append_nil, readBraced?_unclosed hds] at h
    cases h
  | cons x rest =>
    obtain rfl : x = '}' := by simpa using hrest x rfl
    rw [readBraced?_closed hds] at h
    obtain ⟨c, hc, hread⟩ := Option.map_eq_some_iff.mp h
    obtain ⟨rfl, rfl⟩ := Prod.mk.inj hread
    refine ⟨ds, by rw [List.append_assoc, List.singleton_append], fun r => ?_⟩
    rw [List.append_assoc, List.singleton_append, readBraced?_closed hds, hc]
    rfl

theorem readHex?_of_no_brace (h : ¬∃ q, cs = '{' :: q) (width : Nat) :
    readHex? width cs = if cs.length < width then none
      else (Text.namedChar? (cs.take width)).map fun c => (char c, cs.drop width) := by
  unfold readHex?
  split
  · exact absurd ⟨_, rfl⟩ h
  · rfl

/-- a digit is no brace, so what follows the digits may be one -/
theorem readHex?_digits {ds : List Char} (hds : ∀ d ∈ ds, Text.isDigitOf 16 d = true) (h : ds ≠ [])
    (r : List Char) :
    readHex? ds.length (ds ++ r) = (Text.namedChar? ds).map fun c => (char c, r) := by
  obtain ⟨d, ds, rfl⟩ := List.exists_cons_of_ne_nil h
  have hbrace : ¬∃ q, d :: ds ++ r = '{' :: q := by
    rintro ⟨q, hq⟩
    obtain ⟨rfl, _⟩ := List.cons.inj hq
    exact absurd (hds _ List.mem_cons_self) (by decide)
  rw [readHex?_of_no_brace hbrace, if_neg (by simp), List.take_left, List.drop_left]

theorem takes_of_readHex? {width : Nat} (h : readHex? width cs = some (e, r)) :
    ∃ pre, cs = pre ++ r ∧ Takes (readHex? width) pre e := by
  by_cases hbrace : ∃ q, cs = '{' :: q
  · obtain ⟨q, rfl⟩ := hbrace
    obtain ⟨pre, rfl, htakes⟩ := takes_of_readBraced? h
    exact ⟨'{' :: (pre ++ ['}']), rfl, fun r => htakes r⟩
  · rw [readHex?_of_no_brace hbrace] at h
    split at h
    · cases h
    · rename_i hlength
      obtain ⟨c, hc, hread⟩ := Option.map_eq_some_iff.mp h
      obtain ⟨rfl, rfl⟩ := Prod.mk.inj hread
      obtain ⟨hne, hds⟩ := isDigitOf_of_namedChar? hc
      have hwidth : (cs.take width).length = width := by
        rw [List.length_take]
        omega
      refine ⟨cs.take width, (List.take_append_drop _ _).symm, fun r => ?_⟩
      have hread := readHex?_digits hds hne r
      rwa [hwidth, hc] at hread

/-- what follows a backslash is one character, or a letter and a code point -/
theorem takes_of_read? (h : read? cs = some (e, r)) :
    ∃ pre, cs = pre ++ r ∧ Takes read? pre e := by
  cases cs with
  | nil => cases h
  | cons c q =>
    rw [read?] at h
    cases hwidth : codeWidth? c with
    | some width =>
      rw [hwidth] at h
      obtain ⟨pre, rfl, htakes⟩ := takes_of_readHex? h
      refine ⟨c :: pre, rfl, fun r => ?_⟩
      rw [List.cons_append, read?, hwidth]
      exact htakes r
    | none =>
      rw [hwidth] at h
      obtain ⟨e, he, hread⟩ := Option.map_eq_some_iff.mp h
      obtain ⟨rfl, rfl⟩ := Prod.mk.inj hread
      refine ⟨[c], rfl, fun r => ?_⟩
      rw [List.singleton_append, read?, hwidth]
      exact Option.map_eq_some_iff.mpr ⟨e, he, rfl⟩

end Escaped

/-! ## classes in brackets -/

namespace CharClass

variable {cs r u v : List Char} {e : Escaped} {k : CharClass}

theorem takes_of_readMember? (h : readMember? cs = some (e, r)) :
    ∃ pre, cs = pre ++ r ∧ Takes readMember? pre e ∧ pre ≠ [] := by
  unfold readMember? at h
  split at h
  · cases h
  · obtain ⟨pre, rfl, htakes⟩ := Escaped.takes_of_read? h
    exact ⟨'\\' :: pre, rfl, htakes, by simp⟩
  · rename_i c q hslash
    obtain ⟨rfl, rfl⟩ := Prod.mk.inj (Option.some.inj h)
    refine ⟨[c], rfl, fun r => ?_, by simp⟩
    rw [List.singleton_append]
    unfold readMember?
    split
    · rename_i heq
      cases heq
    · rename_i heq
      exact absurd (List.cons.inj heq).1 hslash
    · rename_i heq
      obtain ⟨rfl, rfl⟩ := List.cons.inj heq
      rfl

theorem beginsRange_bracket (u v v' : List Char) :
    beginsRange (u ++ ']' :: v) = beginsRange (u ++ ']' :: v') := by
  match u with
  | [] => cases v <;> cases v' <;> rfl
  | [_] => rfl
  | _ :: _ :: _ => rfl

theorem beginsOperation_bracket (u v v' : List Char) :
    beginsOperation (u ++ ']' :: v) = beginsOperation (u ++ ']' :: v') := by
  match u with
  | [] => cases v <;> cases v' <;> simp [beginsOperation]
  | [_] => rfl
  | _ :: _ :: _ => rfl

section

variable {first : Escaped}

theorem readItem?_of_range (hfirst : readMember? cs = some (first, r))
    (hrange : beginsRange r = true) : readItem? cs =
      (readMember? r.tail).bind fun x => (range? first x.1).map fun k => (k, x.2) := by
  simp only [readItem?, hfirst, Option.bind_eq_bind, Option.bind_some, if_pos hrange,
    Option.map_eq_bind]
  rfl

theorem readItem?_of_single (hfirst : readMember? cs = some (first, r))
    (hrange : ¬beginsRange r = true) : readItem? cs = (ofMember? first).map fun k => (k, r) := by
  simp only [readItem?, hfirst, Option.bind_eq_bind, Option.bind_some, if_neg hrange,
    Option.map_eq_bind]
  rfl

/-- a member is read from what stands before the bracket, and not from what stands behind -/
theorem readItem?_local (h : readItem? cs = some (k, u ++ ']' :: v)) :
    ∃ pre, pre ≠ [] ∧ cs = pre ++ (u ++ ']' :: v) ∧
      ∀ v', readItem? (pre ++ (u ++ ']' :: v')) = some (k, u ++ ']' :: v') := by
  obtain ⟨⟨first, r⟩, hfirst, _⟩ := Option.bind_eq_some_iff.mp h
  obtain ⟨pre, rfl, htakes, hne⟩ := takes_of_readMember? hfirst
  by_cases hrange : beginsRange r = true
  · rw [readItem?_of_range hfirst hrange] at h
    obtain ⟨⟨last, r'⟩, hlast, hmap⟩ := Option.bind_eq_some_iff.mp h
    obtain ⟨k', hk, hread⟩ := Option.map_eq_some_iff.mp hmap
    obtain ⟨rfl, rfl⟩ := Prod.mk.inj hread
    obtain ⟨pre', htail, htakes', hne'⟩ := takes_of_readMember? hlast
    obtain ⟨d, pre', rfl⟩ := List.exists_cons_of_ne_nil hne'
    cases r with
    | nil => cases htail
    | cons c q =>
      obtain rfl : q = d :: pre' ++ (u ++ ']' :: v) := htail
      refine ⟨pre ++ c :: d :: pre', by simp, by simp, fun v' => ?_⟩
      -- the hyphen and the character behind it are the same as before
      have hrange' : beginsRange (c :: d :: pre' ++ (u ++ ']' :: v')) = true := hrange
      rw [List.append_assoc, readItem?_of_range (htakes _) hrange']
      exact Option.bind_eq_some_iff.mpr ⟨_, htakes' _, Option.map_eq_some_iff.mpr ⟨k', hk, rfl⟩⟩
  · rw [readItem?_of_single hfirst hrange] at h
    obtain ⟨k', hk, hread⟩ := Option.map_eq_some_iff.mp h
    obtain ⟨rfl, rfl⟩ := Prod.mk.inj hread
    refine ⟨pre, hne, rfl, fun v' => ?_⟩
    rw [beginsRange_bracket u v v'] at hrange
    rw [readItem?_of_single (htakes _) hrange]
    exact Option.map_eq_some_iff.mpr ⟨k', hk, rfl⟩

end

/-- `f` looks at no more than one character behind what it takes -/
def Peeks {α : Type} (f : List Char → α × List Char) : Prop :=
  ∀ cs, ∃ pre, cs = pre ++ (f cs).2 ∧
    ∀ r, r.head? = (f cs).2.head? → f (pre ++ r) = ((f cs).1, r)

theorem peeks_readNegation : Peeks readNegation := by
  intro cs
  by_cases h : ∃ q, cs = '^' :: q
  · obtain ⟨q, rfl⟩ := h
    exact ⟨['^'], rfl, fun _ _ => rfl⟩
  · have hother : ∀ r : List Char, (¬∃ q, r = '^' :: q) → readNegation r = (false, r) :=
      fun r hr => by
        unfold readNegation
        split
        · exact absurd ⟨_, rfl⟩ hr
        · rfl
    rw [hother cs h]
    refine ⟨[], rfl, fun r hr => hother r ?_⟩
    rintro ⟨q, rfl⟩
    cases cs with
    | nil => cases hr
    | cons c cs => exact h ⟨cs, by rw [Option.some.inj hr]⟩

theorem peeks_readLeading : Peeks readLeading := by
  have hother : ∀ r : List Char, r.head? ≠ some ']' →
      readLeading r = ((r.takeWhile (· == '-')).map only, r.dropWhile (· == '-')) := fun r hr => by
    unfold readLeading
    split
    · exact absurd rfl hr
    · rfl
  intro cs
  by_cases h : cs.head? = some ']'
  · cases cs with
    | nil => cases h
    | cons c q =>
      obtain rfl := Option.some.inj h
      exact ⟨[']'], rfl, fun _ _ => rfl⟩
  · obtain ⟨run, rest, rfl, hrun, hrest⟩ := Text.exists_run (· == '-') cs
    rw [hother _ h, Text.takeWhile_run hrun hrest, Text.dropWhile_run hrun hrest]
    refine ⟨run, rfl, fun r hr => ?_⟩
    have hhead : ∀ x ∈ r.head?, (x == '-') = false := by
      rw [hr]
      exact hrest
    have hbracket : (run ++ r).head? ≠ some ']' := by
      rwa [List.head?_append, hr, ← List.head?_append]
    rw [hother _ hbracket, Text.takeWhile_run hrun hhead, Text.dropWhile_run hrun hhead]

theorem head?_bracket (u v v' : List Char) : (u ++ ']' :: v).head? = (u ++ ']' :: v').head? :=
  head?_append_congr rfl

section

variable {items : List CharClass} {n : Nat} {c : Char}

theorem readItems?_close (n : Nat) (items : List CharClass) (r : List Char) :
    readItems? (n + 1) items (']' :: r) = some (ofItems items.reverse, r) := by
  have hop : beginsOperation (']' :: r) = false := by cases r <;> simp [beginsOperation]
  rw [readItems?, hop, if_neg Bool.false_ne_true]

theorem readItems?_nest (n : Nat) (items : List CharClass) (r : List Char) :
    readItems? (n + 1) items ('[' :: r) =
      if beginsOperation ('[' :: r) then Option.none
      else (readItems?.openClass? n r).bind fun x => readItems? n (x.1 :: items) x.2 := by
  rw [readItems?]
  rfl

theorem readItems?_item (hclose : c ≠ ']') (hopen : c ≠ '[') (n : Nat) (items : List CharClass)
    (r : List Char) : readItems? (n + 1) items (c :: r) =
      if beginsOperation (c :: r) then Option.none
      else (readItem? (c :: r)).bind fun x => readItems? n (x.1 :: items) x.2 := by
  rw [readItems?]
  · rfl
  · exact fun h => nomatch h
  · exact fun _ h => hclose (List.cons.inj h).1
  · exact fun _ h => hopen (List.cons.inj h).1

theorem openClass?_succ (n : Nat) (cs : List Char) : readItems?.openClass? (n + 1) cs =
    (readItems? n (readLeading (readNegation cs).2).1 (readLeading (readNegation cs).2).2).map
      fun x => (if (readNegation cs).1 then except x.1 else x.1, x.2) := rfl

/-- `f` reads `k` up to a closing bracket, whatever stands behind; `bound` is what it needs of the
rounds for itself -/
def UpToBracket (f : Nat → List Char → Option (CharClass × List Char)) (bound : Nat)
    (u : List Char) (k : CharClass) : Prop :=
  ∀ v n, 2 * u.length + bound ≤ n → f n (u ++ ']' :: v) = some (k, v)

/-- a nested class is read twice as deep as an item, hence two rounds for each character -/
theorem UpToBracket.nest {w : List Char} {k' : CharClass}
    (hop : beginsOperation ('[' :: w ++ ']' :: v) = false)
    (hw : UpToBracket readItems?.openClass? 2 w k')
    (hu : UpToBracket (fun n => readItems? n (k' :: items)) 1 u k) :
    UpToBracket (fun n => readItems? n items) 1 ('[' :: w ++ ']' :: u) k := by
  intro v' n hn
  simp only [List.length_append, List.length_cons] at hn
  obtain ⟨n, rfl⟩ : ∃ m, n = m + 1 := ⟨n - 1, by omega⟩
  have hop' : beginsOperation ('[' :: (w ++ ']' :: (u ++ ']' :: v'))) = false := by
    rwa [← List.cons_append, beginsOperation_bracket _ _ v]
  dsimp only
  rw [List.append_assoc, List.cons_append, List.cons_append, readItems?_nest,
    if_neg (by simpa using hop'), hw _ n (by omega)]
  exact hu v' n (by omega)

theorem UpToBracket.item {w : List Char} {k' : CharClass} (hclose : c ≠ ']') (hopen : c ≠ '[')
    (hop : beginsOperation (c :: w ++ (u ++ ']' :: v)) = false)
    (hitem : ∀ v, readItem? (c :: w ++ (u ++ ']' :: v)) = some (k', u ++ ']' :: v))
    (hu : UpToBracket (fun n => readItems? n (k' :: items)) 1 u k) :
    UpToBracket (fun n => readItems? n items) 1 (c :: w ++ u) k := by
  intro v' n hn
  simp only [List.length_append, List.length_cons] at hn
  obtain ⟨n, rfl⟩ : ∃ m, n = m + 1 := ⟨n - 1, by omega⟩
  have hop' : beginsOperation (c :: w ++ (u ++ ']' :: v')) = false := by
    rw [← List.append_assoc, beginsOperation_bracket _ v' v, List.append_assoc, hop]
  dsimp only
  rw [List.append_assoc]
  refine (readItems?_item hclose hopen n items _).trans ?_
  rw [if_neg (by simpa using hop')]
  refine (congrArg (Option.bind · _) (hitem v')).trans ?_
  exact hu v' n (by omega)

theorem UpToBracket.opening {cs u : List Char}
    (h : (readLeading (readNegation cs).2).2 = u ++ ']' :: r)
    (hu : UpToBracket (fun n => readItems? n (readLeading (readNegation cs).2).1) 1 u k) :
    ∃ w, cs = w ++ ']' :: r ∧ UpToBracket readItems?.openClass? 2 w
      (if (readNegation cs).1 then except k else k) := by
  obtain ⟨pre, hpre, hnegation⟩ := peeks_readNegation cs
  obtain ⟨pre', hpre', hleading⟩ := peeks_readLeading (readNegation cs).2
  rw [h] at hpre' hleading
  refine ⟨pre ++ pre' ++ u, ?_, fun v n hn => ?_⟩
  · rw [List.append_assoc, List.append_assoc, ← hpre', ← hpre]
  · simp only [List.length_append] at hn
    obtain ⟨n, rfl⟩ : ∃ m, n = m + 1 := ⟨n - 1, by omega⟩
    have hbracket := head?_bracket u v r
    have hneg := hnegation (pre' ++ (u ++ ']' :: v)) (by
      rw [hpre']
      exact head?_append_congr hbracket)
    have hlead := hleading (u ++ ']' :: v) hbracket
    rw [List.append_assoc, List.append_assoc, openClass?_succ, hneg]
    dsimp only
    rw [hlead]
    have hitems : readItems? n _ (u ++ ']' :: v) = some (k, v) := hu v n (by omega)
    dsimp only
    rw [hitems]
    rfl

/-- the members of a class, and a class behind its opening, both by the rounds -/
theorem upToBracket_of_read (n : Nat) :
    (∀ {items cs k r}, readItems? n items cs = some (k, r) →
      ∃ u, cs = u ++ ']' :: r ∧ UpToBracket (fun n => readItems? n items) 1 u k) ∧
    ∀ {cs k r}, readItems?.openClass? n cs = some (k, r) →
      ∃ u, cs = u ++ ']' :: r ∧ UpToBracket readItems?.openClass? 2 u k := by
  induction n with
  | zero => exact ⟨fun h => (nomatch h), fun h => (nomatch h)⟩
  | succ n ih =>
    obtain ⟨ihitems, ihopen⟩ := ih
    refine ⟨fun {items cs k r} h => ?_, fun {cs k r} h => ?_⟩
    · cases cs with
      | nil => cases h
      | cons c q =>
        by_cases hclose : c = ']'
        · subst hclose
          rw [readItems?_close] at h
          obtain ⟨rfl, rfl⟩ := Prod.mk.inj (Option.some.inj h)
          refine ⟨[], rfl, fun v n hn => ?_⟩
          obtain ⟨n, rfl⟩ := Nat.exists_eq_add_of_le' hn
          exact readItems?_close n items v
        by_cases hopen : c = '['
        · subst hopen
          rw [readItems?_nest] at h
          split at h
          · cases h
          · rename_i hop
            obtain ⟨⟨k', r'⟩, hclass, hrest⟩ := Option.bind_eq_some_iff.mp h
            obtain ⟨w, rfl, hw⟩ := ihopen hclass
            obtain ⟨u, rfl, hu⟩ := ihitems hrest
            exact ⟨'[' :: w ++ ']' :: u, by simp, .nest (by simpa using hop) hw hu⟩
        rw [readItems?_item hclose hopen] at h
        split at h
        · cases h
        · rename_i hop
          obtain ⟨⟨k', r'⟩, hitem, hrest⟩ := Option.bind_eq_some_iff.mp h
          obtain ⟨u, rfl, hu⟩ := ihitems hrest
          obtain ⟨pre, hne, hpre, hlocal⟩ := readItem?_local hitem
          obtain ⟨d, w, rfl⟩ := List.exists_cons_of_ne_nil hne
          obtain ⟨rfl, rfl⟩ := List.cons.inj hpre
          exact ⟨c :: w ++ u, by simp, .item hclose hopen (by simpa using hop) hlocal hu⟩
    · rw [openClass?_succ] at h
      obtain ⟨⟨k', r'⟩, hitems, hread⟩ := Option.map_eq_some_iff.mp h
      obtain ⟨rfl, rfl⟩ := Prod.mk.inj hread
      obtain ⟨u, hcs, hu⟩ := ihitems hitems
      exact hu.opening hcs

end

theorem takes_of_read? (h : read? cs = some (k, r)) :
    ∃ pre, cs = pre ++ [']'] ++ r ∧ Takes read? (pre ++ [']']) k := by
  obtain ⟨u, rfl, hu⟩ := (upToBracket_of_read _).2 h
  refine ⟨u, by rw [List.append_assoc, List.singleton_append], fun v => ?_⟩
  rw [List.append_assoc, List.singleton_append]
  refine hu v _ ?_
  rw [List.length_append]
  omega

end CharClass

end SpanishSyntax.Lexicon
