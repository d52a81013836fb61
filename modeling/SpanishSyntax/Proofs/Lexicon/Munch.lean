import SpanishSyntax.Proofs.Lexicon.Kinds

/-!
# Lexemes are the longest matches, and nothing else is lost

`Matches k cs` says that the pattern of the kind `k` matches all of `cs`.  Where a lexeme begins, no
match of any kind is longer (`length_le_lexemeAt`), and its kind is read off its text.  Spans are
counted in bytes: `Lexeme.StandsIn` ties them to the encoded sentence, and `Segmented` says of all
lexemes together that they are counted, stand apart and leave out nothing but blanks.

* `segmented_segment`   the segmentation of every sentence has these properties.
-/

namespace SpanishSyntax.Lexicon

open Text (isPrefix_takeWhile)

/-! ## patterns -/

/-- digits, perhaps with a point and more digits; one of the eight marks; a run of characters that
are neither blank nor mark -/
inductive Matches : LexemeKind → List Char → Prop where
  | number {c : Char} {tail : List Char} (hc : c.isDigit = true) (ht : NumberTail tail) :
      Matches .number (c :: tail)
  | punctuation {c : Char} (hc : isMark c = true) : Matches .punctuation [c]
  | word {cs : List Char} (hne : cs ≠ []) (hletters : ∀ x ∈ cs, isWordLetter x = true) :
      Matches .word cs

theorem not_isDigit_of_isMark {c : Char} (h : isMark c = true) : c.isDigit = false := by
  rw [Bool.eq_false_iff]
  intro hdigit
  have hdecimal := Text.isDecimalDigit_of_isDigit hdigit
  rw [not_isDecimalDigit_of_isMark h] at hdecimal
  cases hdecimal

theorem not_isWordLetter_of_isMark {c : Char} (h : isMark c = true) : isWordLetter c = false := by
  simp [isWordLetter, h]

theorem Written.matches {k : LexemeKind} {cs : List Char} (h : Written k cs) : Matches k cs := by
  cases h with
  | mark hc => exact .punctuation hc
  | number hc ht => exact .number hc ht
  | word hne hletters _ => exact .word hne hletters

/-- what is written as a word is matched by no other pattern -/
theorem Written.eq_number_iff {k : LexemeKind} {cs : List Char} (h : Written k cs) :
    k = .number ↔ Matches .number cs := by
  refine ⟨fun hk => hk ▸ h.matches, fun hm => ?_⟩
  cases h with
  | mark hc =>
    cases hm with
    | number hdigit _ =>
      rw [not_isDigit_of_isMark hc] at hdigit
      cases hdigit
  | number _ _ => rfl
  | word hne hletters hmixed =>
    cases hm with
    | number hc ht =>
      obtain ⟨x, hx, hno⟩ := hmixed
      rcases List.mem_cons.mp hx with rfl | hx'
      · rw [hno] at hc
        cases hc
      · rcases ht.digit_or_point x hx' with hdigit | rfl
        · rw [hno] at hdigit
          cases hdigit
        · exact absurd hx (point_not_mem_of_wordLetters hletters)

theorem Written.eq_punctuation_iff {k : LexemeKind} {cs : List Char} (h : Written k cs) :
    k = .punctuation ↔ Matches .punctuation cs := by
  refine ⟨fun hk => hk ▸ h.matches, fun hm => ?_⟩
  cases hm with
  | punctuation hmark =>
    cases h with
    | mark _ => rfl
    | number hdigit _ =>
      rw [not_isDigit_of_isMark hmark] at hdigit
      cases hdigit
    | word _ hletters _ =>
      have hletter := hletters _ (List.mem_singleton_self _)
      rw [not_isWordLetter_of_isMark hmark] at hletter
      cases hletter

/-! ## the longest match -/

theorem NumberTail.length_le {t cs : List Char} (ht : NumberTail t) (h : t <+: cs) :
    t.length ≤ (numberTail cs).length := by
  cases ht with
  | whole hds =>
    exact ((isPrefix_takeWhile h hds).trans (takeWhile_isPrefix_numberTail cs)).length_le
  | @decimal ds es hds hne hes =>
    obtain ⟨rest, rfl⟩ := h
    have hlong : es <+: (es ++ rest).takeWhile Char.isDigit :=
      isPrefix_takeWhile (List.prefix_append es rest) hes
    have hmore : (es ++ rest).takeWhile Char.isDigit ≠ [] := fun hnil =>
      hne (List.prefix_nil.mp (hnil ▸ hlong))
    rw [List.append_assoc, List.cons_append, numberTail_of_point hds hmore, List.length_append,
      List.length_append, List.length_cons, List.length_cons]
    exact Nat.add_le_add_left (Nat.succ_le_succ hlong.length_le) _

/-- **No match is longer than the lexeme**, where it begins. -/
theorem length_le_lexemeAt {c : Char} {cs p : List Char} {k : LexemeKind}
    (hp : p <+: c :: cs) (hm : Matches k p) : p.length ≤ (c :: (lexemeAt c cs).2).length := by
  rw [List.length_cons]
  -- how far a match of each kind can reach
  have hreach : p.length = 1 ∨ (isMark c = false ∧ c.isDigit = true ∧
      p.length ≤ (numberTail cs).length + 1) ∨
      (isMark c = false ∧ p.length ≤ (cs.takeWhile isWordLetter).length + 1) := by
    cases hm with
    | punctuation _ => exact .inl rfl
    | number hc ht =>
      obtain ⟨rfl, htail⟩ := List.cons_prefix_cons.mp hp
      refine .inr (.inl ⟨?_, hc, Nat.succ_le_succ (ht.length_le htail)⟩)
      rw [Bool.eq_false_iff]
      intro hmark
      rw [not_isDigit_of_isMark hmark] at hc
      cases hc
    | word hne hletters =>
      obtain ⟨d, tail, rfl⟩ := List.exists_cons_of_ne_nil hne
      obtain ⟨rfl, htail⟩ := List.cons_prefix_cons.mp hp
      obtain ⟨hd, hrest⟩ := List.forall_mem_cons.mp hletters
      exact .inr (.inr ⟨not_isMark_of_isWordLetter hd,
        Nat.succ_le_succ (isPrefix_takeWhile htail hrest).length_le⟩)
  unfold lexemeAt
  rcases hreach with hone | ⟨hmark, hdigit, hle⟩ | ⟨hmark, hle⟩
  · omega
  · rw [if_neg (Bool.eq_false_iff.mp hmark)]
    split
    · exact hle
    · rename_i hlonger
      have hshort : (numberTail cs).length < (cs.takeWhile isWordLetter).length :=
        Nat.lt_of_not_le fun h => hlonger ⟨hdigit, h⟩
      dsimp only
      omega
  · rw [if_neg (Bool.eq_false_iff.mp hmark)]
    split
    · rename_i hlonger
      exact hle.trans (Nat.succ_le_succ hlonger.2)
    · exact hle

/-! ## bytes -/

theorem utf8ByteSize_ofList (cs : List Char) : (String.ofList cs).utf8ByteSize = byteLength cs := by
  induction cs with
  | nil => rfl
  | cons c cs ih =>
    have hsplit : String.ofList (c :: cs) = String.singleton c ++ String.ofList cs := by
      rw [String.singleton_eq_ofList, ← String.ofList_append]
      rfl
    rw [hsplit, String.utf8ByteSize_append, ih, String.utf8ByteSize_singleton]
    rfl

theorem byteLength_cons (c : Char) (cs : List Char) :
    byteLength (c :: cs) = c.utf8Size + byteLength cs := rfl

theorem byteLength_append (cs ds : List Char) :
    byteLength (cs ++ ds) = byteLength cs + byteLength ds :=
  total_append Char.utf8Size cs ds

theorem byteLength_cons_pos (c : Char) (cs : List Char) : 0 < byteLength (c :: cs) :=
  Nat.add_pos_left (Char.utf8Size_pos c) _

theorem eq_of_byteLength_eq {u v u' v' : List Char} (h : u ++ v = u' ++ v')
    (hlength : byteLength u = byteLength u') : u = u' ∧ v = v' := by
  have hnil : ∀ ds, byteLength ds = 0 → ds = [] := by
    intro ds hds
    cases ds with
    | nil => rfl
    | cons d ds => exact absurd hds (byteLength_cons_pos d ds).ne'
  rcases List.append_eq_append_iff.mp h with ⟨as, rfl, rfl⟩ | ⟨bs, rfl, rfl⟩
  · rw [byteLength_append] at hlength
    rw [hnil as (by omega)]
    exact ⟨(List.append_nil u).symm, rfl⟩
  · rw [byteLength_append] at hlength
    rw [hnil bs (by omega)]
    exact ⟨List.append_nil u', rfl⟩

/-- a position behind whole characters -/
theorem isValid_of_append {s : String} {u v : List Char} (h : s.toList = u ++ v) :
    String.Pos.Raw.IsValid s ⟨byteLength u⟩ := by
  rw [String.Pos.Raw.isValid_iff_exists_append]
  refine ⟨String.ofList u, String.ofList v, ?_, ?_⟩
  · rw [← String.ofList_append, ← h, String.ofList_toList]
  · rw [← utf8ByteSize_ofList]
    rfl

theorem extract_of_append {s : String} {u t v : List Char} (h : s.toList = u ++ (t ++ v)) :
    s.toByteArray.extract (byteLength u) (byteLength u + byteLength t) =
      (String.ofList t).toByteArray := by
  have hsize : ∀ cs, byteLength cs = (String.ofList cs).toByteArray.size := fun cs => by
    rw [String.size_toByteArray, utf8ByteSize_ofList]
  have hs : s.toByteArray = (String.ofList u).toByteArray ++
      ((String.ofList t).toByteArray ++ (String.ofList v).toByteArray) := by
    rw [← String.toByteArray_append, ← String.toByteArray_append, ← String.ofList_append,
      ← String.ofList_append, ← h, String.ofList_toList]
  rw [hs, hsize u, hsize t]
  conv => lhs; arg 2; rw [← Nat.add_zero (String.ofList u).toByteArray.size]
  rw [ByteArray.extract_append_size_add]
  exact ByteArray.extract_append_eq_left rfl

/-! ## where a lexeme stands -/

/-- the lexeme `l` is a part of `s`, of the kind that its text has and as long as can be -/
structure Lexeme.StandsIn (s : String) (l : Lexeme) : Prop where
  nonempty : l.start < l.stop
  start_valid : String.Pos.Raw.IsValid s ⟨l.start⟩
  stop_valid : String.Pos.Raw.IsValid s ⟨l.stop⟩
  /-- the bytes of the span are those of the text -/
  bytes : s.toByteArray.extract l.start l.stop = l.text.toByteArray
  number : l.kind = .number ↔ Matches .number l.text.toList
  punctuation : l.kind = .punctuation ↔ Matches .punctuation l.text.toList
  word : l.kind = .word → Matches .word l.text.toList
  /-- `v` is what remains of the sentence where the lexeme starts -/
  longest : ∀ u v, s.toList = u ++ v → byteLength u = l.start →
    ∀ k p, p <+: v → Matches k p → p.length ≤ l.text.toList.length

structure Segmented (s : String) (ls : List Lexeme) : Prop where
  indices : ls.map (·.index) = List.range ls.length
  apart : ls.Pairwise fun l m => l.stop ≤ m.start
  stands : ∀ l ∈ ls, l.StandsIn s
  /-- a character is outside all spans exactly if it is blank -/
  blank_iff : ∀ u x v, s.toList = u ++ x :: v →
    (Text.isBlank x = true ↔ ∀ l ∈ ls, ¬ (l.start ≤ byteLength u ∧ byteLength u < l.stop))

namespace Cut

variable {i o : Nat} {cs : List Char} {ls : List Lexeme}

theorem indices_eq (h : Cut i o cs ls) : ls.map (·.index) = List.range' i ls.length := by
  induction h with
  | nil => rfl
  | blank _ _ ih => exact ih
  | lexeme _ _ _ ih =>
    rw [List.map_cons, ih]
    rfl

/-- the text in front of a lexeme, and the lexeme that is found behind it -/
structure Found (o : Nat) (cs : List Char) (l : Lexeme) (u : List Char) (c : Char)
    (tail rest : List Char) : Prop where
  split : cs = u ++ c :: (tail ++ rest)
  not_blank : Text.isBlank c = false
  lexeme : lexemeAt c (tail ++ rest) = (l.kind, tail)
  text : l.text.toList = c :: tail
  start : l.start = o + byteLength u
  stop : l.stop = o + byteLength u + byteLength (c :: tail)

theorem found (h : Cut i o cs ls) : ∀ l ∈ ls, ∃ u c tail rest, Found o cs l u c tail rest := by
  induction h with
  | nil => exact fun _ hl => nomatch hl
  | @blank i o c cs ls _ _ ih =>
    intro l hl
    obtain ⟨u, d, tail, rest, hf⟩ := ih l hl
    refine ⟨c :: u, d, tail, rest, congrArg (List.cons c) hf.split, hf.not_blank, hf.lexeme,
      hf.text, ?_, ?_⟩
    · rw [hf.start, byteLength_cons, Nat.add_assoc]
    · rw [hf.stop, byteLength_cons c, Nat.add_assoc o]
  | @lexeme i o c k tail rest ls hc hl _ ih =>
    refine List.forall_mem_cons.mpr ⟨?_, fun l hl => ?_⟩
    · exact ⟨[], c, tail, rest, rfl, hc, hl, String.toList_ofList, rfl, rfl⟩
    · obtain ⟨u, d, tail', rest', hf⟩ := ih l hl
      refine ⟨c :: tail ++ u, d, tail', rest', ?_, hf.not_blank, hf.lexeme, hf.text, ?_, ?_⟩
      · rw [hf.split, List.append_assoc, List.cons_append]
      · rw [hf.start, byteLength_append, Nat.add_assoc]
      · rw [hf.stop, byteLength_append, Nat.add_assoc o]

end Cut

/-- a span that begins at a character and holds the first byte of `x` holds `x` itself -/
theorem mem_of_byte_mem {u t v u' v' : List Char} {x : Char} (h : u ++ (t ++ v) = u' ++ x :: v')
    (hstart : byteLength u ≤ byteLength u') (hstop : byteLength u' < byteLength u + byteLength t) :
    x ∈ t := by
  rcases List.append_eq_append_iff.mp h with ⟨as, rfl, hrest⟩ | ⟨bs, rfl, hrest⟩
  · rw [byteLength_append] at hstop
    rcases List.append_eq_append_iff.mp hrest with ⟨bs, rfl, _⟩ | ⟨bs, rfl, hx⟩
    · rw [byteLength_append] at hstop
      omega
    · cases bs with
      | nil =>
        rw [List.append_nil] at hstop
        omega
      | cons b bs =>
        obtain ⟨rfl, _⟩ := List.cons.inj hx
        exact List.mem_append_right _ List.mem_cons_self
  · rw [byteLength_append] at hstart
    cases bs with
    | nil =>
      cases t with
      | nil =>
        rw [List.append_nil] at hstop
        exact absurd hstop (Nat.lt_irrefl _)
      | cons b t =>
        obtain ⟨rfl, _⟩ := List.cons.inj hrest
        exact List.mem_cons_self
    | cons b bs =>
      have hpos := byteLength_cons_pos b bs
      omega

theorem standsIn_of_mem_segment {s : String} {l : Lexeme} (hl : l ∈ segment s) : l.StandsIn s := by
  obtain ⟨u, c, tail, rest, hf⟩ := (cut_segmentFrom 0 0 s.toList).found l hl
  have hwritten := written_of_mem_segment hl
  have hsplit : s.toList = u ++ ((c :: tail) ++ rest) := hf.split
  have hstart : l.start = byteLength u := hf.start.trans (Nat.zero_add _)
  have hstop : l.stop = byteLength u + byteLength (c :: tail) := by
    rw [hf.stop, Nat.zero_add]
  have htext : l.text = String.ofList (c :: tail) := by
    rw [← hf.text, String.ofList_toList]
  refine ⟨?_, ?_, ?_, ?_, hwritten.eq_number_iff, hwritten.eq_punctuation_iff, fun hk => ?_, ?_⟩
  · have hpos := byteLength_cons_pos c tail
    omega
  · rw [hstart]
    exact isValid_of_append hsplit
  · rw [hstop, ← byteLength_append]
    exact isValid_of_append (hsplit.trans (List.append_assoc _ _ _).symm)
  · rw [hstart, hstop, htext]
    exact extract_of_append hsplit
  · exact hk ▸ hwritten.matches
  · intro u' v hs hu k p hp hm
    obtain ⟨rfl, rfl⟩ := eq_of_byteLength_eq (hs.symm.trans hsplit) (hu.trans hstart)
    have hle : p.length ≤ (c :: (lexemeAt c (tail ++ rest)).2).length := length_le_lexemeAt hp hm
    rw [hf.lexeme] at hle
    rw [hf.text]
    exact hle

/-- **Segmentation is a lossless maximal munch**: it takes the longest match everywhere, and what
lies between its lexemes is blank. -/
theorem segmented_segment (s : String) : Segmented s (segment s) := by
  have hcut := cut_segmentFrom 0 0 s.toList
  refine ⟨?_, hcut.spans_apart, fun l hl => standsIn_of_mem_segment hl, fun u x v hs => ?_⟩
  · rw [List.range_eq_range']
    exact hcut.indices_eq
  · constructor
    · rintro hblank l hl ⟨hstart, hstop⟩
      obtain ⟨u', c, tail, rest, hf⟩ := hcut.found l hl
      have hsplit : u' ++ ((c :: tail) ++ rest) = u ++ x :: v := hf.split.symm.trans hs
      rw [hf.start, Nat.zero_add] at hstart
      rw [hf.stop, Nat.zero_add] at hstop
      have hmem : x ∈ l.text.toList := hf.text ▸ mem_of_byte_mem hsplit hstart hstop
      have hno := ((chars_of_mem_segment hl).2 x hmem).1
      rw [hblank] at hno
      cases hno
    · intro houtside
      by_contra hno
      rw [hs] at hcut
      obtain ⟨left, l, right, hls, _, hcovers, _⟩ :=
        hcut.exists_covers (Bool.eq_false_iff.mpr hno)
      have hl : l ∈ segment s := by
        rw [segment, hs, hls]
        exact List.mem_append_right _ List.mem_cons_self
      have hspan := hcut.contains_of_covers (hls ▸ List.mem_append_right _ List.mem_cons_self)
        hcovers
      rw [Nat.zero_add] at hspan
      exact houtside l hl hspan

end SpanishSyntax.Lexicon
