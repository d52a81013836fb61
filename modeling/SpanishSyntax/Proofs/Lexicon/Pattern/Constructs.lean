import SpanishSyntax.Proofs.Lexicon.Pattern.Matching
import SpanishSyntax.Proofs.Lexicon.Pattern.Members

/-!
# What a construct is read from

A construct of a pattern is read from a piece in front of the text, and anything may follow the
piece but a question mark: that of a lazy repetition or of a group belongs to the piece.  So
`Construct.Written` says what the next character was.  A repetition has its bounds in order
(`Construct.begins_of_read?`).
-/

namespace SpanishSyntax.Lexicon

namespace Pattern

/-! ## repetitions -/

section

variable {cs r rest : List Char} {t : Char} {value : Option Nat}

theorem readCount?_append (hblank : ∀ c ∈ rest.head?, Text.isBlank c = false)
    (hdigit : ∀ c ∈ rest.head?, c.isDigit = false) (u : List Char) :
    readCount? (u ++ rest) = ((readCount? u).1, (readCount? u).2 ++ rest) := by
  unfold readCount?
  dsimp only
  rw [Text.dropWhile_append_of_head hblank, Text.takeWhile_append_of_head hdigit,
    Text.dropWhile_append_of_head hdigit, Text.dropWhile_append_of_head hblank]

theorem readCount?_local (hblank : Text.isBlank t = false) (hdigit : t.isDigit = false)
    (h : readCount? cs = (value, t :: r)) :
    ∃ u, cs = u ++ t :: r ∧ ∀ r', readCount? (u ++ t :: r') = (value, t :: r') := by
  have hsuffix : (readCount? cs).2 <:+ cs :=
    (List.dropWhile_suffix _).trans <| (List.dropWhile_suffix _).trans <| List.dropWhile_suffix _
  rw [h] at hsuffix
  obtain ⟨u, rfl⟩ := hsuffix
  have happend : ∀ r', readCount? (u ++ t :: r') =
      ((readCount? u).1, (readCount? u).2 ++ t :: r') := fun r' =>
    readCount?_append (by rintro _ ⟨⟩; exact hblank) (by rintro _ ⟨⟩; exact hdigit) u
  obtain ⟨hvalue, hnil⟩ := Prod.mk.inj ((happend r).symm.trans h)
  rw [List.append_left_eq_self] at hnil
  exact ⟨u, rfl, fun r' => by rw [happend, hvalue, hnil, List.nil_append]⟩

theorem blank_brace : Text.isBlank '}' = false := by decide

theorem dropWhile_blank_brace (u r : List Char) :
    (u ++ '}' :: r).dropWhile Text.isBlank = u.dropWhile Text.isBlank ++ '}' :: r :=
  Text.dropWhile_append_of_head (by rintro _ ⟨⟩; exact blank_brace) u

theorem readHigh?_of_brace {low : Nat} (h : cs.dropWhile Text.isBlank = '}' :: r) :
    readHigh? low cs = some (none, r) := by
  rw [readHigh?, h]
  rfl

theorem readHigh?_of_count {low high : Nat} (h : (cs.dropWhile Text.isBlank).head? ≠ some '}')
    (hcount : readCount? cs = (some high, '}' :: r)) :
    readHigh? low cs = if low ≤ high then some (some high, r) else none := by
  unfold readHigh?
  split
  · rename_i hdrop
    rw [hdrop] at h
    exact absurd rfl h
  · rw [hcount]
    rfl

theorem readHigh?_local {low : Nat} {high : Option Nat} (h : readHigh? low cs = some (high, r)) :
    ∃ u, cs = u ++ '}' :: r ∧ (∀ r', readHigh? low (u ++ '}' :: r') = some (high, r')) ∧
      ∀ n ∈ high, low ≤ n := by
  unfold readHigh? at h
  split at h
  · rename_i q hdrop
    obtain ⟨rfl, rfl⟩ := Prod.mk.inj (Option.some.inj h)
    obtain ⟨run, rest, rfl, hrun, hrest⟩ := Text.exists_run Text.isBlank cs
    rw [Text.dropWhile_run hrun hrest] at hdrop
    subst hdrop
    refine ⟨run, rfl, fun r' => readHigh?_of_brace ?_, fun n hn => nomatch hn⟩
    exact Text.dropWhile_run hrun (by rintro _ ⟨⟩; exact blank_brace)
  · rename_i hdrop
    split at h
    · rename_i m q hcount
      split at h
      · rename_i hle
        obtain ⟨rfl, rfl⟩ := Prod.mk.inj (Option.some.inj h)
        obtain ⟨u, rfl, hlocal⟩ := readCount?_local blank_brace (by decide) hcount
        refine ⟨u, rfl, fun r' => ?_, fun n hn => Option.some.inj hn ▸ hle⟩
        have hsame : ((u ++ '}' :: r').dropWhile Text.isBlank).head? =
            ((u ++ '}' :: q).dropWhile Text.isBlank).head? := by
          rw [dropWhile_blank_brace, dropWhile_blank_brace]
          exact head?_append_congr rfl
        have hhead : ((u ++ '}' :: r').dropWhile Text.isBlank).head? ≠ some '}' := fun hbrace => by
          obtain ⟨v, hv⟩ := List.head?_eq_some_iff.mp (hsame.symm.trans hbrace)
          exact hdrop v hv
        rw [readHigh?_of_count hhead (hlocal r'), if_pos hle]
      · cases h
    · cases h

theorem readCounts?_local {low : Nat} {high : Option Nat}
    (h : readCounts? cs = some (low, high, r)) :
    ∃ u, cs = u ++ '}' :: r ∧ (∀ r', readCounts? (u ++ '}' :: r') = some (low, high, r')) ∧
      ∀ n ∈ high, low ≤ n := by
  unfold readCounts? at h
  split at h
  · rename_i hcount
    obtain ⟨rfl, hrest⟩ := Prod.mk.inj (Option.some.inj h)
    obtain ⟨rfl, rfl⟩ := Prod.mk.inj hrest
    obtain ⟨u, rfl, hlocal⟩ := readCount?_local blank_brace (by decide) hcount
    refine ⟨u, rfl, fun r' => ?_, fun n hn => Option.some.inj hn ▸ Nat.le_refl _⟩
    rw [readCounts?, hlocal]
    rfl
  · rename_i hcount
    obtain ⟨⟨m, q⟩, hhigh, hread⟩ := Option.map_eq_some_iff.mp h
    obtain ⟨rfl, hrest⟩ := Prod.mk.inj hread
    obtain ⟨rfl, rfl⟩ := Prod.mk.inj hrest
    obtain ⟨u, rfl, hlocal⟩ := readCount?_local (by decide) (by decide) hcount
    obtain ⟨w, rfl, hlocal', hbounds⟩ := readHigh?_local hhigh
    refine ⟨u ++ ',' :: w, by simp, fun r' => ?_, hbounds⟩
    rw [List.append_assoc, List.cons_append, readCounts?, hlocal]
    show (readHigh? _ _).map _ = _
    rw [hlocal']
    rfl
  · cases h

theorem dropLazy_of_head (h : r.head? ≠ some '?') : dropLazy r = r := by
  unfold dropLazy
  split
  · exact absurd rfl h
  · rfl

/-- the question mark of a lazy repetition, if there is one, and what may follow without it -/
theorem exists_lazy (r : List Char) :
    ∃ mark, r = mark ++ dropLazy r ∧
      ∀ r', (r'.head? = some '?' → (dropLazy r).head? = some '?') → dropLazy (mark ++ r') = r' := by
  by_cases h : r.head? = some '?'
  · cases r with
    | nil => cases h
    | cons c r =>
      obtain rfl := Option.some.inj h
      exact ⟨['?'], rfl, fun _ _ => rfl⟩
  · rw [dropLazy_of_head h]
    exact ⟨[], rfl, fun r' hr' => dropLazy_of_head fun hmark => h (hr' hmark)⟩

end

/-! ## groups -/

section

variable {cs r n : List Char} {name : Option (List Char)}

theorem takes_of_readName? (h : readName? cs = some (n, r)) :
    ∃ pre, cs = pre ++ ['>'] ++ r ∧ Takes readName? (pre ++ ['>']) n := by
  obtain ⟨run, rest, rfl, hrun, hrest⟩ := Text.exists_run (fun c => decide (c ≠ '>')) cs
  rw [readName?, Text.takeWhile_run hrun hrest, Text.dropWhile_run hrun hrest] at h
  split at h
  · rename_i c cs x q
    split at h
    · rename_i hname
      obtain ⟨rfl, rfl⟩ := Prod.mk.inj (Option.some.inj h)
      obtain rfl : x = '>' := by simpa using hrest x rfl
      refine ⟨c :: cs, by simp, fun r' => ?_⟩
      have hend : ∀ d ∈ ('>' :: r').head?, decide (d ≠ '>') = false := by
        rintro _ ⟨⟩
        decide
      rw [List.append_assoc, List.singleton_append, readName?, Text.takeWhile_run hrun hend,
        Text.dropWhile_run hrun hend]
      exact if_pos hname
    · cases h
  · cases h

theorem readGroupHead?_of_head (h : r.head? ≠ some '?') : readGroupHead? r = some (none, r) := by
  unfold readGroupHead?
  split <;> first
    | exact absurd rfl h
    | rfl

theorem readGroupHead?_local (h : readGroupHead? cs = some (name, r)) :
    ∃ pre, cs = pre ++ r ∧
      ∀ r', (r'.head? = some '?' → r.head? = some '?') →
        readGroupHead? (pre ++ r') = some (name, r') := by
  have hnamed : ∀ {head q : List Char}, (∀ q, readGroupHead? (head ++ q) =
      (readName? q).map fun x => (some x.1, x.2)) → readGroupHead? (head ++ q) = some (name, r) →
      ∃ pre, q = pre ++ ['>'] ++ r ∧ Takes readGroupHead? (head ++ (pre ++ ['>'])) name := by
    intro head q hhead hread
    rw [hhead] at hread
    obtain ⟨⟨n, r'⟩, hname, hread⟩ := Option.map_eq_some_iff.mp hread
    obtain ⟨rfl, rfl⟩ := Prod.mk.inj hread
    obtain ⟨pre, rfl, htakes⟩ := takes_of_readName? hname
    refine ⟨pre, rfl, fun r' => ?_⟩
    rw [List.append_assoc, hhead, htakes]
    rfl
  have h' := h
  unfold readGroupHead? at h
  split at h
  · obtain ⟨rfl, rfl⟩ := Prod.mk.inj (Option.some.inj h)
    exact ⟨['?', ':'], rfl, fun _ _ => rfl⟩
  · obtain ⟨pre, rfl, htakes⟩ := @hnamed ['?', 'P', '<'] _ (fun _ => rfl) h'
    exact ⟨['?', 'P', '<'] ++ (pre ++ ['>']), by simp, fun r' _ => htakes r'⟩
  · obtain ⟨pre, rfl, htakes⟩ := @hnamed ['?', '<'] _ (fun _ => rfl) h'
    exact ⟨['?', '<'] ++ (pre ++ ['>']), by simp, fun r' _ => htakes r'⟩
  · cases h
  · rename_i hmark
    obtain ⟨rfl, rfl⟩ := Prod.mk.inj (Option.some.inj h)
    refine ⟨[], rfl, fun r' hr' => readGroupHead?_of_head fun hhead => ?_⟩
    obtain ⟨q, hq⟩ := List.head?_eq_some_iff.mp (hr' hhead)
    exact hmark q hq

end

/-! ## constructs -/

namespace Construct

/-- `pre` is read as `k` whatever follows, but a question mark only where one followed -/
structure Written (pre : List Char) (k : Construct) (next : Option Char) : Prop where
  ne_nil : pre ≠ []
  read : ∀ r, (r.head? = some '?' → next = some '?') → read? (pre ++ r) = some (k, r)

/-- a repetition has no lower bound above its upper one, and neither have those in an item -/
def Proper : Construct → Prop
  | times low high => ∀ n ∈ high, low ≤ n
  | item p => p.Proper
  | _ => True

section

variable {cs r : List Char} {k : Construct}

/-- a piece in front of `cs` writes `k`, and `r` is what follows it -/
def Begins (cs : List Char) (k : Construct) (r : List Char) : Prop :=
  ∃ pre, cs = pre ++ r ∧ Written pre k r.head? ∧ k.Proper

theorem begins_one {c : Char} (hread : ∀ r, read? (c :: r) = some (k, r)) (hk : k.Proper)
    (r : List Char) : Begins (c :: r) k r :=
  ⟨[c], rfl, ⟨by simp, fun r _ => hread r⟩, hk⟩

/-- a repetition, greedy or lazy -/
theorem begins_times {pre : List Char} {low : Nat} {high : Option Nat}
    (hread : ∀ r, read? (pre ++ r) = some (times low high, dropLazy r)) (hne : pre ≠ [])
    (hbounds : ∀ n ∈ high, low ≤ n) (r : List Char) :
    Begins (pre ++ r) (times low high) (dropLazy r) := by
  obtain ⟨mark, hr, hlazy⟩ := exists_lazy r
  refine ⟨pre ++ mark, ?_, ⟨by simp [hne], fun r' hr' => ?_⟩, hbounds⟩
  · rw [List.append_assoc, ← hr]
  · rw [List.append_assoc, hread, hlazy r' hr']

theorem begins_counts {low : Nat} {high : Option Nat} (h : readCounts? cs = some (low, high, r)) :
    Begins ('{' :: cs) (times low high) (dropLazy r) := by
  obtain ⟨u, rfl, hlocal, hbounds⟩ := readCounts?_local h
  have hread : ∀ r, read? ('{' :: u ++ ['}'] ++ r) = some (times low high, dropLazy r) := by
    intro r
    rw [List.append_assoc]
    show (readCounts? (u ++ '}' :: r)).map _ = _
    rw [hlocal]
    rfl
  have hbegins := begins_times hread (by simp) hbounds r
  rwa [List.append_assoc] at hbegins

theorem begins_openGroup {name : Option (List Char)} (h : readGroupHead? cs = some (name, r)) :
    Begins ('(' :: cs) (openGroup name) r := by
  obtain ⟨pre, rfl, hlocal⟩ := readGroupHead?_local h
  refine ⟨'(' :: pre, rfl, ⟨by simp, fun r' hr' => ?_⟩, trivial⟩
  show (readGroupHead? (pre ++ r')).map _ = _
  rw [hlocal r' hr']
  rfl

theorem begins_class {k : CharClass} (h : CharClass.read? cs = some (k, r)) :
    Begins ('[' :: cs) (item (.one k)) r := by
  obtain ⟨pre, rfl, htakes⟩ := CharClass.takes_of_read? h
  refine ⟨'[' :: (pre ++ [']']), rfl, ⟨by simp, fun r' _ => ?_⟩, trivial⟩
  show (CharClass.read? (pre ++ [']'] ++ r')).map _ = _
  rw [htakes]
  rfl

theorem begins_escaped {e : Escaped} (h : Escaped.read? cs = some (e, r)) :
    Begins ('\\' :: cs) (item (ofEscaped e)) r := by
  obtain ⟨pre, rfl, htakes⟩ := Escaped.takes_of_read? h
  refine ⟨'\\' :: pre, rfl, ⟨by simp, fun r' _ => ?_⟩, ?_⟩
  · show (Escaped.read? (pre ++ r')).map _ = _
    rw [htakes]
    rfl
  · cases e <;> trivial

/-- **What a construct is read from** is a piece in front of the text, and anything may follow but a
question mark. -/
theorem begins_of_read? (h : read? cs = some (k, r)) : Begins cs k r := by
  have hone : ∀ {c : Char} {q : List Char} {k' : Construct}, some (k', q) = some (k, r) →
      (∀ r, read? (c :: r) = some (k', r)) → k'.Proper → Begins (c :: q) k r := by
    intro c q k' heq hread hk
    obtain ⟨rfl, rfl⟩ := Prod.mk.inj (Option.some.inj heq)
    exact begins_one hread hk q
  have hsign : ∀ {c : Char} {q : List Char} {low : Nat} {high : Option Nat},
      some (times low high, dropLazy q) = some (k, r) →
      (∀ r, read? (c :: r) = some (times low high, dropLazy r)) →
      (∀ n ∈ high, low ≤ n) → Begins (c :: q) k r := by
    intro c q low high heq hread hbounds
    obtain ⟨rfl, rfl⟩ := Prod.mk.inj (Option.some.inj heq)
    exact @begins_times [c] _ _ hread (by simp) hbounds q
  unfold read? at h
  split at h
  · cases h
  · obtain ⟨⟨name, q⟩, hhead, heq⟩ := Option.map_eq_some_iff.mp h
    obtain ⟨rfl, rfl⟩ := Prod.mk.inj heq
    exact begins_openGroup hhead
  · exact hone h (fun _ => rfl) trivial
  · exact hone h (fun _ => rfl) trivial
  · exact hsign h (fun _ => rfl) (by simp)
  · exact hsign h (fun _ => rfl) (by simp)
  · exact hsign h (fun _ => rfl) (by simp)
  · obtain ⟨⟨low, high, q⟩, hcounts, heq⟩ := Option.map_eq_some_iff.mp h
    obtain ⟨rfl, rfl⟩ := Prod.mk.inj heq
    exact begins_counts hcounts
  · obtain ⟨⟨k', q⟩, hclass, heq⟩ := Option.map_eq_some_iff.mp h
    obtain ⟨rfl, rfl⟩ := Prod.mk.inj heq
    exact begins_class hclass
  · obtain ⟨⟨e, q⟩, hescaped, heq⟩ := Option.map_eq_some_iff.mp h
    obtain ⟨rfl, rfl⟩ := Prod.mk.inj heq
    exact begins_escaped hescaped
  · exact hone h (fun _ => rfl) trivial
  · exact hone h (fun _ => rfl) trivial
  · exact hone h (fun _ => rfl) trivial
  · refine hone h (fun r' => ?_) trivial
    rw [read?] <;> assumption

end

end Construct

end Pattern

end SpanishSyntax.Lexicon
