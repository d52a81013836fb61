import SpanishSyntax.Proofs.Grammar.RuleText

/-!
# The grammar of rule text

How a rule may be written is said here without the reader.  `RuleLine.Spells` writes the symbols of
an alternative with gaps, `RuleLine.Alternatives` puts bars between alternatives,
`RuleLine.Layout` puts the head and an arrow in front and perhaps a comment behind, and
`RuleLine.Line` allows blanks around all of it, blank lines and comment lines.  `Rendering` numbers
the rules of a text by its lines.

* `RuleLine.alternatives_alternativesOf`   whatever can stand in a body is a list of alternatives;
* `RuleLine.Layout.read_trim`              a rule is read, with blanks around it or without;
* `RuleLine.line_none_iff`, `RuleLine.line_some_iff`   so the trimmed line says what the line says;
* `readRules_exact`                        a text is read exactly as the rules it renders, and
                                           refused at the first line that is none of blank, comment
                                           and rule.
-/

namespace SpanishSyntax

namespace RuleLine

/-! ## how a line is written -/

/-- names with gaps around them, and at least a space or tab between two of them -/
inductive Spells : List String → List Char → Prop where
  | nil {gap : List Char} (hgap : Gap gap) : Spells [] gap
  | cons {n : String} {ns : List String} {gap rest : List Char} (hgap : Gap gap) (hn : IsName n)
      (hend : ∀ c ∈ rest.head?, isGap c = true) (h : Spells ns rest) :
      Spells (n :: ns) (gap ++ (n.toList ++ rest))

/-- the symbols of an alternative; for none, nothing or `ε` -/
inductive Alternative : List String → List Char → Prop where
  | symbols {ns : List String} {cs : List Char} (h : Spells ns cs) (hne : ns ≠ ["ε"]) :
      Alternative ns cs
  | epsilon {cs : List Char} (h : Spells ["ε"] cs) : Alternative [] cs

/-- at least one alternative, with bars between them -/
inductive Alternatives : List (List String) → List Char → Prop where
  | last {alt : List String} {cs : List Char} (h : Alternative alt cs) : Alternatives [alt] cs
  | bar {alt : List String} {alts : List (List String)} {cs rest : List Char}
      (h : Alternative alt cs) (hrest : Alternatives alts rest) :
      Alternatives (alt :: alts) (cs ++ '|' :: rest)

/-- a rule from its head on, up to the end of the line -/
inductive Layout (head : String) (alts : List (List String)) : List Char → Prop where
  | intro {gap arrow body tail : List Char} (hhead : IsName head) (hgap : Gap gap)
      (harrow : arrow ∈ arrows) (hbody : Alternatives alts body)
      (htail : Text.Blank tail ∨ ∃ comment, tail = '#' :: comment) :
      Layout head alts (head.toList ++ (gap ++ (arrow ++ (body ++ tail))))

/-- a line with what it says: nothing, or the head and the alternatives of a rule -/
inductive Line : List Char → Option (String × List (List String)) → Prop where
  | blank {l : List Char} (h : Text.Blank l) : Line l none
  | comment {before : List Char} (h : Text.Blank before) (comment : List Char) :
      Line (before ++ '#' :: comment) none
  | rule {head : String} {alts : List (List String)} {before cs : List Char}
      (h : Text.Blank before) (hrule : Layout head alts cs) :
      Line (before ++ cs) (some (head, alts))

/-- the rule of the line with that number -/
def numbered (n : Nat) (said : Option (String × List (List String))) : List RuleLine :=
  said.toList.map fun r => ⟨n, r.1, r.2⟩

end RuleLine

/-- a text of lines that each end with a line feed, alone or behind a carriage return, but for the
last; its rules have the numbers of their lines, counted from `n` -/
inductive Rendering : Nat → List Char → List RuleLine → Prop where
  | last {n : Nat} {l : List Char} {said : Option (String × List (List String))} (hl : '\n' ∉ l)
      (h : RuleLine.Line l said) : Rendering n l (RuleLine.numbered n said)
  | more {n : Nat} {l ending rest : List Char} {said : Option (String × List (List String))}
      {rs : List RuleLine} (hl : '\n' ∉ l) (h : RuleLine.Line l said)
      (hending : ending = ['\n'] ∨ ending = ['\r', '\n']) (hrest : Rendering (n + 1) rest rs) :
      Rendering n (l ++ (ending ++ rest)) (RuleLine.numbered n said ++ rs)

namespace RuleLine

/-! ## alternatives -/

theorem Spells.chars {ns : List String} {cs : List Char} (h : Spells ns cs) :
    ∀ c ∈ cs, isSymbolChar c = true ∨ isGap c = true := by
  induction h with
  | nil hgap => exact fun c hc => .inr (hgap c hc)
  | cons hgap hn _ _ ih =>
    refine List.forall_mem_append.mpr ⟨fun c hc => .inr (hgap c hc), ?_⟩
    exact List.forall_mem_append.mpr ⟨fun c hc => .inl (hn.2 c hc), ih⟩

theorem Spells.words {ns : List String} {cs : List Char} (h : Spells ns cs) :
    (Text.words isGap cs).map String.ofList = ns := by
  induction h with
  | nil hgap =>
    have hnil := Text.words_append_seps hgap []
    rw [List.nil_append] at hnil
    rw [hnil]
    rfl
  | @cons n ns gap rest hgap hn hend _ ih =>
    have hname := Text.words_of_no_sep hn.1 hn.no_gap
    rw [Text.words_seps_append hgap]
    cases rest with
    | nil =>
      rw [List.append_nil, hname, ← ih]
      exact congrArg (fun s => [s]) String.ofList_toList
    | cons c rest =>
      have hc : isGap c = true := hend c rfl
      have hskip : Text.words isGap ([c] ++ rest) = Text.words isGap rest :=
        Text.words_seps_append (List.forall_mem_singleton.mpr hc) rest
      rw [List.singleton_append] at hskip
      rw [Text.words_append_cons hc, hname, ← hskip, List.map_append, ih]
      exact congrArg (fun s => s :: ns) String.ofList_toList

/-- a gap in front makes no difference -/
theorem Spells.gap_append {ns : List String} {cs : List Char} (h : Spells ns cs) {gap : List Char}
    (hgap : Gap gap) : Spells ns (gap ++ cs) := by
  cases h with
  | nil hcs => exact .nil (List.forall_mem_append.mpr ⟨hgap, hcs⟩)
  | cons hfirst hn hend h =>
    rw [← List.append_assoc]
    exact .cons (List.forall_mem_append.mpr ⟨hgap, hfirst⟩) hn hend h

theorem Spells.name_append {ns : List String} {w rest : List Char} (hw : IsName (String.ofList w))
    (hend : ∀ c ∈ rest.head?, isGap c = true) (h : Spells ns rest) :
    Spells (String.ofList w :: ns) (w ++ rest) := by
  have hspells := Spells.cons (fun _ hc => (nomatch hc) : Gap []) hw hend h
  rwa [String.toList_ofList] at hspells

theorem exists_spells {cs : List Char} (h : ∀ c ∈ cs, isSymbolChar c = true ∨ isGap c = true) :
    ∃ ns, Spells ns cs := by
  have hname : ∀ w : List Char, w ≠ [] → (∀ c ∈ w, isSymbolChar c = true ∨ isGap c = true) →
      (∀ c ∈ w, isGap c = false) → IsName (String.ofList w) := fun w hne hw hgap =>
    isName_ofList hne fun c hc => (hw c hc).resolve_right (Bool.eq_false_iff.mp (hgap c hc))
  have hnil : Spells [] [] := .nil fun _ hc => nomatch hc
  induction cs using Text.sep_induction isGap with
  | plain cs hplain =>
    by_cases hne : cs = []
    · exact ⟨[], hne ▸ hnil⟩
    · have hend : ∀ c ∈ ([] : List Char).head?, isGap c = true := fun _ hc => nomatch hc
      have hspells := hnil.name_append (hname cs hne h hplain) hend
      rw [List.append_nil] at hspells
      exact ⟨_, hspells⟩
  | sep w s rest hplain hs ih =>
    obtain ⟨hw, hrest⟩ := List.forall_mem_append.mp h
    obtain ⟨ns, hns⟩ := ih (List.forall_mem_cons.mp hrest).2
    have hbehind : Spells ns (s :: rest) := hns.gap_append (List.forall_mem_singleton.mpr hs)
    by_cases hne : w = []
    · exact ⟨ns, hne ▸ hbehind⟩
    · refine ⟨_, hbehind.name_append (hname w hne hw hplain) fun c hc => ?_⟩
      obtain rfl := Option.some.inj hc
      exact hs

theorem Alternative.chars {alt : List String} {cs : List Char} (h : Alternative alt cs) :
    ∀ c ∈ cs, isSymbolChar c = true ∨ isGap c = true := by
  cases h with
  | symbols h _ => exact h.chars
  | epsilon h => exact h.chars

theorem Alternative.alternative_eq {alt : List String} {cs : List Char} (h : Alternative alt cs) :
    alternative cs = alt := by
  cases h with
  | symbols h hne => exact RuleLine.alternative_eq h.words hne
  | epsilon h =>
    unfold alternative
    rw [h.words]
    rfl

theorem alternative_alternative {cs : List Char}
    (h : ∀ c ∈ cs, isSymbolChar c = true ∨ isGap c = true) : Alternative (alternative cs) cs := by
  obtain ⟨ns, hns⟩ := exists_spells h
  by_cases hepsilon : ns = ["ε"]
  · subst hepsilon
    have halt : Alternative [] cs := .epsilon hns
    rwa [← halt.alternative_eq] at halt
  · have halt : Alternative ns cs := .symbols hns hepsilon
    rwa [← halt.alternative_eq] at halt

theorem ne_bar {c : Char} (h : isSymbolChar c = true ∨ isGap c = true) : (c == '|') = false := by
  rcases h with h | h
  · exact ne_bar_of_isSymbolChar h
  · rw [beq_eq_false_iff_ne]
    rintro rfl
    revert h
    decide

theorem isBodyChar_iff {c : Char} :
    isBodyChar c = true ↔ (isSymbolChar c = true ∨ isGap c = true) ∨ c = '|' := by
  simp [isBodyChar]

theorem Alternatives.chars {alts : List (List String)} {body : List Char}
    (h : Alternatives alts body) : ∀ c ∈ body, isBodyChar c = true := by
  induction h with
  | last h => exact fun c hc => isBodyChar_iff.mpr (.inl (h.chars c hc))
  | bar h _ ih =>
    refine List.forall_mem_append.mpr ⟨fun c hc => isBodyChar_iff.mpr (.inl (h.chars c hc)), ?_⟩
    exact List.forall_mem_cons.mpr ⟨isBodyChar_iff.mpr (.inr rfl), ih⟩

theorem Alternatives.alternativesOf_eq {alts : List (List String)} {body : List Char}
    (h : Alternatives alts body) : alternativesOf body = alts := by
  induction h with
  | last h =>
    rw [alternativesOf, Text.pieces_of_no_sep fun c hc => ne_bar (h.chars c hc), List.map_singleton,
      h.alternative_eq]
  | bar h _ ih =>
    rw [alternativesOf, Text.pieces_append_sep (fun c hc => ne_bar (h.chars c hc)) (by rfl),
      List.map_cons, h.alternative_eq, ← alternativesOf, ih]

theorem alternatives_alternativesOf {body : List Char} (h : ∀ c ∈ body, isBodyChar c = true) :
    Alternatives (alternativesOf body) body := by
  have hplain : ∀ cs : List Char, (∀ c ∈ cs, isBodyChar c = true) → (∀ c ∈ cs, (c == '|') = false) →
      Alternative (alternative cs) cs := fun cs hcs hbar => by
    refine alternative_alternative fun c hc => (isBodyChar_iff.mp (hcs c hc)).resolve_right ?_
    exact beq_eq_false_iff_ne.mp (hbar c hc)
  induction body using Text.sep_induction (· == '|') with
  | plain body hbar =>
    rw [alternativesOf, Text.pieces_of_no_sep hbar]
    exact .last (hplain body h hbar)
  | sep cs s rest hbar hs ih =>
    obtain ⟨hcs, hrest⟩ := List.forall_mem_append.mp h
    rw [alternativesOf, Text.pieces_append_sep hbar hs, List.map_cons, ← alternativesOf]
    obtain rfl := beq_iff_eq.mp hs
    exact .bar (hplain cs hcs hbar) (ih (List.forall_mem_cons.mp hrest).2)

/-- a gap at the end makes no difference -/
theorem alternativesOf_append_gap {gap : List Char} (hgap : Gap gap) (body : List Char) :
    alternativesOf (body ++ gap) = alternativesOf body := by
  have hbar : ∀ c ∈ gap, (c == '|') = false := fun c hc => ne_bar (.inr (hgap c hc))
  induction body using Text.sep_induction (· == '|') with
  | plain body hplain =>
    rw [alternativesOf, alternativesOf, Text.pieces_of_no_sep hplain,
      Text.pieces_of_no_sep (List.forall_mem_append.mpr ⟨hplain, hbar⟩), List.map_singleton,
      List.map_singleton]
    unfold alternative
    rw [Text.words_append_seps hgap]
  | sep cs s rest hplain hs ih =>
    rw [List.append_assoc, List.cons_append, alternativesOf, alternativesOf,
      Text.pieces_append_sep hplain hs, Text.pieces_append_sep hplain hs, List.map_cons,
      List.map_cons, ← alternativesOf, ← alternativesOf, ih]

/-! ## blanks around a line -/

section
variable {l : List Char} {head : String} {alts : List (List String)}

theorem isBlank_hash : Text.isBlank '#' = false := by decide

theorem isGap_of_isBlank {c : Char} (hbody : isBodyChar c = true) (h : Text.isBlank c = true) :
    isGap c = true := by
  rcases isBodyChar_iff.mp hbody with (hc | hc) | rfl
  · rw [not_isBlank_of_isSymbolChar hc] at h
    cases h
  · exact hc
  · revert h
    decide

theorem Layout.append_blank {cs : List Char} (h : Layout head alts cs) {behind : List Char}
    (hbehind : Text.Blank behind) : Layout head alts (cs ++ behind) := by
  obtain ⟨hhead, hgap, harrow, hbody, htail⟩ := h
  rw [List.append_assoc, List.append_assoc, List.append_assoc, List.append_assoc]
  refine .intro hhead hgap harrow hbody ?_
  rcases htail with htail | ⟨comment, rfl⟩
  · exact .inl (htail.append hbehind)
  · exact .inr ⟨comment ++ behind, rfl⟩

theorem Line.append_blank {said : Option (String × List (List String))} (h : Line l said)
    {behind : List Char} (hbehind : Text.Blank behind) : Line (l ++ behind) said := by
  cases h with
  | blank h => exact .blank (h.append hbehind)
  | comment h comment =>
    rw [List.append_assoc, List.cons_append]
    exact .comment h (comment ++ behind)
  | rule h hrule =>
    rw [List.append_assoc]
    exact .rule h (hrule.append_blank hbehind)

theorem Parts.layout {cs gap arrow body tail : List Char}
    (h : Parts cs head alts gap arrow body tail) : Layout head alts cs := by
  have hbody := alternatives_alternativesOf h.body_chars
  rw [← h.alts_eq] at hbody
  rw [h.split]
  refine .intro h.isName_head h.gap_gap h.arrow_mem hbody ?_
  rcases h.tail_eq with rfl | hcomment
  · exact .inl fun _ hc => nomatch hc
  · exact .inr hcomment

theorem not_isBlank_head {rest : List Char} (h : IsName head) :
    ∀ c ∈ (head.toList ++ rest).head?, Text.isBlank c = false := by
  intro c hc
  rw [List.head?_append_of_ne_nil _ h.1] at hc
  exact not_isBlank_of_isSymbolChar (h.2 c (List.mem_of_mem_head? hc))

/-- a rule between blanks is read as if these were not there -/
theorem Layout.read_trim {before cs : List Char} (hbefore : Text.Blank before)
    (h : Layout head alts cs) : read (Text.trim (before ++ cs)) = .ok (head, alts) := by
  obtain ⟨hhead, hgap, harrow, hbody, htail⟩ := h
  rename_i gap arrow body tail
  rcases htail with htail | ⟨comment, rfl⟩
  · -- the blanks at the end of the body are cut off too
    obtain ⟨front, behind, rfl, hbehind, hfront⟩ := Text.exists_blank_end body
    obtain ⟨hfrontchars, hbehindchars⟩ := List.forall_mem_append.mp hbody.chars
    obtain ⟨arrow, c, rfl, hc⟩ := exists_arrow_eq_concat harrow
    have hgapbehind : Gap behind := fun d hd =>
      isGap_of_isBlank (hbehindchars d hd) (hbehind d hd)
    have hsplit : head.toList ++ (gap ++ (arrow ++ [c] ++ (front ++ behind ++ tail))) =
        ((head.toList ++ (gap ++ arrow)) ++ c :: front) ++ (behind ++ tail) := by simp
    have hfirst : ∀ d ∈ ((head.toList ++ (gap ++ arrow)) ++ c :: front).head?,
        Text.isBlank d = false := by
      rw [List.append_assoc]
      exact not_isBlank_head hhead
    rw [hsplit, Text.trim_between hbefore (hbehind.append htail) hfirst hc hfront]
    have halts : alts = alternativesOf front := by
      rw [← alternativesOf_append_gap hgapbehind, hbody.alternativesOf_eq]
    have hparts : Parts ((head.toList ++ (gap ++ arrow)) ++ c :: front) head alts gap
        (arrow ++ [c]) front [] :=
      ⟨by simp, hhead, hgap, harrow, hfrontchars, halts, .inl rfl⟩
    exact hparts.read_eq
  · obtain ⟨front, behind, rfl, hbehind, hfront⟩ := Text.exists_blank_end comment
    have hsplit : head.toList ++ (gap ++ (arrow ++ (body ++ '#' :: (front ++ behind)))) =
        ((head.toList ++ (gap ++ (arrow ++ body))) ++ '#' :: front) ++ behind := by simp
    have hfirst : ∀ d ∈ ((head.toList ++ (gap ++ (arrow ++ body))) ++ '#' :: front).head?,
        Text.isBlank d = false := by
      rw [List.append_assoc]
      exact not_isBlank_head hhead
    rw [hsplit, Text.trim_between hbefore hbehind hfirst isBlank_hash hfront]
    have hparts : Parts ((head.toList ++ (gap ++ (arrow ++ body))) ++ '#' :: front) head alts gap
        arrow body ('#' :: front) :=
      ⟨by simp, hhead, hgap, harrow, hbody.chars, hbody.alternativesOf_eq.symm, .inr ⟨front, rfl⟩⟩
    exact hparts.read_eq

/-! ## lines -/

/-- a head is no comment sign -/
theorem Layout.not_isSilent {before cs : List Char} (hbefore : Text.Blank before)
    (h : Layout head alts cs) : isSilent (Text.trim (before ++ cs)) = false := by
  -- a silent line is not read
  have hread := h.read_trim hbefore
  rw [Bool.eq_false_iff]
  intro hsilent
  cases htrim : Text.trim (before ++ cs) with
  | nil =>
    rw [htrim] at hread
    cases hread
  | cons c rest =>
    rw [htrim] at hread hsilent
    obtain rfl := beq_iff_eq.mp hsilent
    rw [read, List.takeWhile_cons_of_neg (by simp [isSymbolChar_hash])] at hread
    cases hread

theorem line_none_iff {l : List Char} : Line l none ↔ isSilent (Text.trim l) = true := by
  constructor
  · intro h
    cases h with
    | blank h =>
      rw [Text.trim_eq_nil_iff.mpr h]
      rfl
    | comment h comment =>
      obtain ⟨front, behind, rfl, hbehind, hfront⟩ := Text.exists_blank_end comment
      have hfirst : ∀ c ∈ ([] ++ '#' :: front).head?, Text.isBlank c = false := by
        intro c hc
        obtain rfl := Option.some.inj hc
        exact isBlank_hash
      have htrim := Text.trim_between h hbehind hfirst isBlank_hash hfront
      rw [List.nil_append, List.cons_append] at htrim
      rw [htrim]
      rfl
  · intro h
    obtain ⟨before, behind, hl, hbefore, hbehind⟩ := Text.exists_trim l
    cases htrim : Text.trim l with
    | nil => exact .blank (Text.trim_eq_nil_iff.mp htrim)
    | cons c comment =>
      rw [htrim] at h hl
      obtain rfl := beq_iff_eq.mp h
      rw [hl]
      exact .comment hbefore (comment ++ behind)

theorem line_some_iff {l : List Char} : Line l (some (head, alts)) ↔
    isSilent (Text.trim l) = false ∧ read (Text.trim l) = .ok (head, alts) := by
  constructor
  · intro h
    cases h with
    | rule h hrule => exact ⟨hrule.not_isSilent h, hrule.read_trim h⟩
  · rintro ⟨-, hread⟩
    obtain ⟨before, behind, hl, hbefore, hbehind⟩ := Text.exists_trim l
    obtain ⟨gap, arrow, body, tail, hparts⟩ := exists_parts hread
    rw [hl]
    exact .rule hbefore (hparts.layout.append_blank hbehind)

end

section
variable {l : List Char} {ls : List (List Char)}

theorem readLines_of_line {said : Option (String × List (List String))} (h : Line l said)
    (n : Nat) (ls : List (List Char)) :
    readLines n (l :: ls) = (readLines (n + 1) ls).map (numbered n said ++ ·) := by
  cases said with
  | none =>
    rw [readLines, line_none_iff.mp h, if_pos rfl]
    cases readLines (n + 1) ls <;> rfl
  | some rule =>
    obtain ⟨hsilent, hread⟩ := line_some_iff.mp h
    rw [readLines, hsilent, if_neg Bool.false_ne_true, hread]
    rfl

theorem readLines_of_no_line (h : ¬ ∃ said, Line l said) :
    ∃ f, ∀ n ls, readLines n (l :: ls) = .error ⟨n, f⟩ := by
  have hsilent : isSilent (Text.trim l) = false := by
    rw [Bool.eq_false_iff]
    exact fun hl => h ⟨none, line_none_iff.mpr hl⟩
  cases hread : read (Text.trim l) with
  | error f =>
    refine ⟨f, fun n ls => ?_⟩
    rw [readLines, hsilent, if_neg Bool.false_ne_true, hread]
  | ok rule => exact absurd ⟨some rule, line_some_iff.mpr ⟨hsilent, hread⟩⟩ h

/-- the first line that is not one -/
theorem readLines_eq_error_iff {n m : Nat} :
    (∃ f, readLines n ls = .error ⟨m, f⟩) ↔ ∃ before l after, ls = before ++ l :: after ∧
      m = n + before.length ∧ (∀ k ∈ before, ∃ said, Line k said) ∧ ¬ ∃ said, Line l said := by
  induction ls generalizing n with
  | nil =>
    constructor
    · rintro ⟨f, h⟩
      cases h
    · rintro ⟨before, l, after, hnil, -⟩
      simp at hnil
  | cons k ls ih =>
    by_cases hk : ∃ said, Line k said
    · obtain ⟨said, hsaid⟩ := hk
      have hrest : (∃ f, readLines n (k :: ls) = .error ⟨m, f⟩) ↔
          ∃ f, readLines (n + 1) ls = .error ⟨m, f⟩ := by
        rw [readLines_of_line hsaid]
        cases readLines (n + 1) ls <;> simp [Except.map]
      rw [hrest, ih]
      constructor
      · rintro ⟨before, l, after, rfl, rfl, hbefore, hl⟩
        refine ⟨k :: before, l, after, rfl, ?_,
          List.forall_mem_cons.mpr ⟨⟨said, hsaid⟩, hbefore⟩, hl⟩
        rw [List.length_cons]
        omega
      · rintro ⟨before, l, after, heq, rfl, hbefore, hl⟩
        cases before with
        | nil =>
          obtain ⟨rfl, -⟩ := List.cons.inj heq
          exact absurd ⟨said, hsaid⟩ hl
        | cons b before =>
          obtain ⟨-, rfl⟩ := List.cons.inj heq
          refine ⟨before, l, after, rfl, ?_, (List.forall_mem_cons.mp hbefore).2, hl⟩
          rw [List.length_cons]
          omega
    · obtain ⟨f, hf⟩ := readLines_of_no_line hk
      constructor
      · rintro ⟨f', h⟩
        rw [hf] at h
        injection h with h
        injection h with hm
        exact ⟨[], k, ls, rfl, hm.symm, (fun _ hb => nomatch hb), hk⟩
      · rintro ⟨before, l, after, heq, rfl, hbefore, -⟩
        cases before with
        | nil => exact ⟨f, hf _ _⟩
        | cons b before =>
          obtain ⟨rfl, -⟩ := List.cons.inj heq
          exact absurd (List.forall_mem_cons.mp hbefore).1 hk

theorem readLines_cons_eq_ok_iff {n : Nat} {rs : List RuleLine} :
    readLines n (l :: ls) = .ok rs ↔ ∃ said rest, Line l said ∧
      readLines (n + 1) ls = .ok rest ∧ rs = numbered n said ++ rest := by
  by_cases hl : ∃ said, Line l said
  · obtain ⟨said, hsaid⟩ := hl
    have hcons := readLines_of_line hsaid n ls
    constructor
    · intro h
      rw [hcons] at h
      cases hrest : readLines (n + 1) ls with
      | error m =>
        rw [hrest] at h
        cases h
      | ok rest =>
        rw [hrest] at h
        exact ⟨said, rest, hsaid, rfl, (Except.ok.inj h).symm⟩
    · rintro ⟨said', rest, hsaid', hrest, rfl⟩
      rw [readLines_of_line hsaid', hrest]
      rfl
  · obtain ⟨f, hf⟩ := readLines_of_no_line hl
    constructor
    · intro h
      rw [hf] at h
      cases h
    · rintro ⟨said, -, hsaid, -⟩
      exact absurd ⟨said, hsaid⟩ hl

end

end RuleLine

/-! ## texts -/

open RuleLine

theorem rendering_of_readLines {n : Nat} {cs : List Char} {rs : List RuleLine}
    (h : readLines n (Text.pieces (· == '\n') cs) = .ok rs) : Rendering n cs rs := by
  have hline : ∀ l : List Char, (∀ c ∈ l, (c == '\n') = false) → '\n' ∉ l := fun l hl hmem =>
    beq_eq_false_iff_ne.mp (hl _ hmem) rfl
  induction cs using Text.sep_induction (· == '\n') generalizing n rs with
  | plain l hplain =>
    rw [Text.pieces_of_no_sep hplain] at h
    obtain ⟨said, rest, hsaid, hrest, rfl⟩ := readLines_cons_eq_ok_iff.mp h
    obtain rfl := Except.ok.inj hrest
    rw [List.append_nil]
    exact .last (hline l hplain) hsaid
  | sep l s rest hplain hs ih =>
    rw [Text.pieces_append_sep hplain hs] at h
    obtain ⟨said, after, hsaid, hafter, rfl⟩ := readLines_cons_eq_ok_iff.mp h
    obtain rfl := beq_iff_eq.mp hs
    exact .more (hline l hplain) hsaid (.inl rfl) (ih hafter)

theorem Rendering.readLines_eq {n : Nat} {cs : List Char} {rs : List RuleLine}
    (h : Rendering n cs rs) : readLines n (Text.pieces (· == '\n') cs) = .ok rs := by
  have hplain : ∀ l : List Char, '\n' ∉ l → ∀ c ∈ l, (c == '\n') = false := by
    rintro l hl c hc
    rw [beq_eq_false_iff_ne]
    rintro rfl
    exact hl hc
  induction h with
  | last hl hsaid =>
    rw [Text.pieces_of_no_sep (hplain _ hl)]
    exact readLines_cons_eq_ok_iff.mpr ⟨_, [], hsaid, rfl, (List.append_nil _).symm⟩
  | @more n l ending rest said rs hl hsaid hending _ ih =>
    rcases hending with rfl | rfl
    · rw [List.singleton_append, Text.pieces_append_sep (hplain l hl) (by rfl)]
      exact readLines_cons_eq_ok_iff.mpr ⟨said, rs, hsaid, ih, rfl⟩
    · -- the carriage return is a blank at the end of the line
      have hreturn : '\n' ∉ l ++ ['\r'] := by
        rw [List.mem_append]
        rintro (hmem | hmem)
        · exact hl hmem
        · revert hmem
          decide
      have hblank : Text.Blank ['\r'] := List.forall_mem_singleton.mpr (by decide)
      have hsplit : l ++ (['\r', '\n'] ++ rest) = (l ++ ['\r']) ++ '\n' :: rest := by simp
      rw [hsplit, Text.pieces_append_sep (hplain _ hreturn) (by rfl)]
      exact readLines_cons_eq_ok_iff.mpr ⟨said, rs, hsaid.append_blank hblank, ih, rfl⟩

/-- the reader accepts exactly the grammar of rule lines: a text is read as the rules that it
renders and as no others, and it is refused at the first line that is none of blank, comment and
rule. -/
theorem readRules_exact (text : String) :
    (∀ rs, readRules text = .ok rs ↔ Rendering 1 text.toList rs) ∧
    ∀ n, (∃ f, readRules text = .error ⟨n, f⟩) ↔
      ∃ before l after, Text.lines text = before ++ l :: after ∧ n = before.length + 1 ∧
        (∀ k ∈ before, ∃ said, RuleLine.Line k said) ∧ ¬ ∃ said, RuleLine.Line l said := by
  refine ⟨fun rs => ⟨rendering_of_readLines, Rendering.readLines_eq⟩, fun n => ?_⟩
  simp only [Nat.add_comm _ 1]
  exact readLines_eq_error_iff

example : readRules "S->a |\r\n# c\n\n T ::=\tε|b'# d" =
    .ok [⟨1, "S", [["a"], []]⟩, ⟨4, "T", [[], ["b'"]]⟩] := by
  decide +kernel

end SpanishSyntax
