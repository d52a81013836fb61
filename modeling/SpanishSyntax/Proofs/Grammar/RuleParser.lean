import SpanishSyntax.Grammar.RuleParser
import SpanishSyntax.Proofs.Grammar.LineGrammar

/-!
# The parser of rule lines reads what the reader reads

A padded parser looks behind the gap in front of it and leaves none behind it, so what a
repetition of such parsers does is decided by what stands behind the first gap
(`RuleLine.Leaves`).  When the last round fails, the gap that it had passed is given back, and
whoever comes next passes it again: that is why it makes no difference where the gap in front of a
bar, a comment or the end of the line was left.

* `RuleLine.leaves_rounds`         the symbols of an alternative;
* `RuleLine.leaves_alternatives`   the alternatives of a body;
* `RuleLine.parse_ruleParser`      a line that begins without a gap is read alike;
* `parseRules_exact`               and so is a text, hence as exactly the rules that it renders.
-/

namespace SpanishSyntax

namespace TextParser

variable {α β : Type}

theorem andThen_of_eq {p : TextParser α} {q : TextParser β} {cs rest : List Char} {x : α}
    (h : p cs = some (x, rest)) :
    andThen p q cs = (q rest).map fun s => ((x, s.1), s.2) := by
  rw [andThen, h, Option.bind_some]

theorem andIgnore_of_eq {p : TextParser α} {q : TextParser β} {cs rest : List Char} {x : α}
    (h : p cs = some (x, rest)) : andIgnore p q cs = (q rest).map fun s => (x, s.2) := by
  rw [andIgnore, map, andThen_of_eq h, Option.map_map]
  rfl

theorem andIgnore_of_none {p : TextParser α} {cs : List Char} (h : p cs = none)
    (q : TextParser β) : andIgnore p q cs = none := by
  rw [andIgnore, map, andThen, h]
  rfl

theorem ignoreAnd_of_eq {p : TextParser α} {q : TextParser β} {cs rest : List Char} {x : α}
    (h : p cs = some (x, rest)) : ignoreAnd p q cs = q rest := by
  rw [ignoreAnd, map, andThen_of_eq h, Option.map_map]
  exact congrFun Option.map_id _

theorem rounds_of_none {p : TextParser α} {cs : List Char} (h : p cs = none) :
    rounds p cs = ([], cs) := by
  rw [rounds, h]

theorem rounds_of_eq {p : TextParser α} {cs rest : List Char} {x : α} (h : p cs = some (x, rest))
    (hlt : rest.length < cs.length) :
    rounds p cs = (x :: (rounds p rest).1, (rounds p rest).2) := by
  rw [rounds, h]
  exact if_pos hlt

theorem rounds_satisfying (p : Char → Bool) (cs : List Char) :
    rounds (satisfying p) cs = (cs.takeWhile p, cs.dropWhile p) := by
  induction cs with
  | nil => exact rounds_of_none rfl
  | cons c cs ih =>
    cases hc : p c with
    | false =>
      rw [rounds_of_none (by simp [satisfying, hc]), List.takeWhile_cons_of_neg (by simp [hc]),
        List.dropWhile_cons_of_neg (by simp [hc])]
    | true =>
      have hround : satisfying p (c :: cs) = some (c, cs) := if_pos hc
      rw [rounds_of_eq hround (Nat.lt_succ_self _), ih, List.takeWhile_cons_of_pos hc,
        List.dropWhile_cons_of_pos hc]

theorem rounds_anyChar (cs : List Char) : rounds anyChar cs = (cs, []) := by
  induction cs with
  | nil => exact rounds_of_none rfl
  | cons c cs ih =>
    have hround : anyChar (c :: cs) = some (c, cs) := rfl
    rw [rounds_of_eq hround (Nat.lt_succ_self _), ih]

theorem orElse_eq_some {p q : TextParser α} {cs : List Char} {r : α × List Char}
    (h : orElse p q cs = some r) : p cs = some r ∨ q cs = some r := by
  unfold orElse at h
  split at h
  · rename_i hp
    exact .inl (hp.trans h)
  · exact .inr h

theorem just_eq_some {text cs x rest : List Char} (h : just text cs = some (x, rest)) :
    x = text ∧ cs = text ++ rest := by
  unfold just at h
  split at h
  · rename_i hprefix
    obtain ⟨rfl, rfl⟩ := Prod.mk.inj (Option.some.inj h)
    obtain ⟨behind, rfl⟩ := List.isPrefixOf_iff_prefix.mp hprefix
    rw [List.drop_left]
    exact ⟨rfl, rfl⟩
  · cases h

end TextParser

namespace RuleLine

open TextParser

theorem gapParser_eq (cs : List Char) :
    gapParser cs = some (cs.takeWhile isGap, cs.dropWhile isGap) :=
  congrArg some (rounds_satisfying isGap cs)

theorem symbolParser_of_name {n : String} {rest : List Char} (hn : IsName n)
    (hrest : ∀ c ∈ rest.head?, isSymbolChar c = false) :
    symbolParser (n.toList ++ rest) = some (n, rest) := by
  have hpos : 1 ≤ n.toList.length := List.length_pos_iff.mpr hn.1
  simp only [symbolParser, map, atLeast, repeated, rounds_satisfying, Text.takeWhile_run hn.2 hrest,
    Text.dropWhile_run hn.2 hrest, Option.bind_some, if_pos hpos, Option.map_some,
    String.ofList_toList]

theorem symbolParser_of_head {cs : List Char} (h : ∀ c ∈ cs.head?, isSymbolChar c = false) :
    symbolParser cs = none := by
  have hnil : cs.takeWhile isSymbolChar = [] := by
    cases cs with
    | nil => rfl
    | cons c cs => exact List.takeWhile_cons_of_neg (by simp [h c rfl])
  simp [symbolParser, map, atLeast, repeated, rounds_satisfying, hnil]

/-- a padded parser looks behind the gap in front, and leaves no gap -/
theorem padded_eq {α : Type} (p : TextParser α) (cs : List Char) :
    paddedBy p gapParser cs =
      (p (cs.dropWhile isGap)).map fun r => (r.1, r.2.dropWhile isGap) := by
  have hfront : ignoreAnd gapParser p cs = p (cs.dropWhile isGap) :=
    ignoreAnd_of_eq (gapParser_eq cs)
  unfold paddedBy
  cases h : p (cs.dropWhile isGap) with
  | none => exact andIgnore_of_none (hfront.trans h) _
  | some r => rw [andIgnore_of_eq (hfront.trans h), gapParser_eq, Option.map_some, Option.map_some]

theorem dropWhile_dropWhile_gap (cs : List Char) :
    (cs.dropWhile isGap).dropWhile isGap = cs.dropWhile isGap := by
  rw [List.dropWhile_eq_self_iff]
  intro hpos
  exact List.dropWhile_get_zero_not _ _ hpos

/-- the parser gives `x` and leaves, perhaps behind a gap, the text `tail` -/
structure Leaves {α : Type} (r : α × List Char) (cs : List Char) (x : α) (tail : List Char) :
    Prop where
  value : r.1 = x
  rest : r.2.dropWhile isGap = tail
  le : r.2.length ≤ cs.length

theorem leaves_rounds {ns : List String} {run tail : List Char} (h : Spells ns run)
    (htail : ∀ c ∈ tail.head?, isSymbolChar c = false ∧ isGap c = false) {cs : List Char}
    (hcs : cs.dropWhile isGap = (run ++ tail).dropWhile isGap) :
    Leaves (rounds (paddedBy symbolParser gapParser) cs) cs ns tail := by
  induction h generalizing cs with
  | @nil gap hgap =>
    have hdrop : cs.dropWhile isGap = tail :=
      hcs.trans (Text.dropWhile_run hgap fun c hc => (htail c hc).2)
    have hnone : paddedBy symbolParser gapParser cs = none := by
      rw [padded_eq, hdrop, symbolParser_of_head fun c hc => (htail c hc).1, Option.map_none]
    rw [rounds_of_none hnone]
    exact ⟨rfl, hdrop, Nat.le_refl _⟩
  | @cons n ns gap rest hgap hn hend _ ih =>
    have hstop : ∀ c ∈ (rest ++ tail).head?, isSymbolChar c = false := by
      intro c hc
      cases rest with
      | nil => exact (htail c hc).1
      | cons d rest =>
        obtain rfl := Option.some.inj hc
        exact not_isSymbolChar_of_isGap (hend _ rfl)
    have hdrop : cs.dropWhile isGap = n.toList ++ (rest ++ tail) := by
      rw [hcs, List.append_assoc, List.append_assoc]
      refine Text.dropWhile_run hgap fun c hc => ?_
      rw [List.head?_append_of_ne_nil _ hn.1] at hc
      exact hn.no_gap c (List.mem_of_mem_head? hc)
    have hround : paddedBy symbolParser gapParser cs =
        some (n, (rest ++ tail).dropWhile isGap) := by
      rw [padded_eq, hdrop, symbolParser_of_name hn hstop, Option.map_some]
    have hlt : ((rest ++ tail).dropWhile isGap).length < cs.length := by
      have hpos := List.length_pos_iff.mpr hn.1
      have hle := (List.dropWhile_sublist isGap (l := rest ++ tail)).length_le
      have hle' := (List.dropWhile_sublist isGap (l := cs)).length_le
      rw [hdrop, List.length_append] at hle'
      omega
    obtain ⟨hvalue, hrest, hle⟩ := ih (dropWhile_dropWhile_gap _)
    rw [rounds_of_eq hround hlt]
    exact ⟨congrArg (List.cons n) hvalue, hrest, hle.trans hlt.le⟩

theorem leaves_alternative {alt : List String} {run tail : List Char} (h : Alternative alt run)
    (htail : ∀ c ∈ tail.head?, isSymbolChar c = false ∧ isGap c = false) {cs : List Char}
    (hcs : cs.dropWhile isGap = (run ++ tail).dropWhile isGap) :
    ∃ r, alternativeParser cs = some r ∧ Leaves r cs alt tail := by
  refine ⟨_, rfl, ?_⟩
  cases h with
  | symbols h hne =>
    obtain ⟨hvalue, hrest, hle⟩ := leaves_rounds h htail hcs
    refine ⟨?_, hrest, hle⟩
    show withoutEpsilon _ = alt
    rw [hvalue]
    unfold withoutEpsilon
    split
    · exact absurd rfl hne
    · rfl
  | epsilon h =>
    obtain ⟨hvalue, hrest, hle⟩ := leaves_rounds h htail hcs
    refine ⟨?_, hrest, hle⟩
    show withoutEpsilon _ = []
    rw [hvalue]
    rfl

theorem barParser_of_bar {cs rest : List Char} (h : cs.dropWhile isGap = '|' :: rest) :
    barParser cs = some (['|'], rest.dropWhile isGap) := by
  rw [barParser, padded_eq, h]
  rfl

theorem barParser_of_ne {cs tail : List Char} (h : cs.dropWhile isGap = tail)
    (htail : ∀ c ∈ tail.head?, c ≠ '|') : barParser cs = none := by
  rw [barParser, padded_eq, h]
  cases tail with
  | nil => rfl
  | cons c tail => simp [just, (htail c rfl).symm]

/-- the first alternative, and one more behind each bar -/
theorem leaves_alternatives {alts : List (List String)} {body tail : List Char}
    (h : Alternatives alts body) (htail : ∀ c ∈ tail.head?, isBodyChar c = false)
    {cs : List Char} (hcs : cs.dropWhile isGap = (body ++ tail).dropWhile isGap) :
    ∃ x rest, alternativeParser cs = some (x, rest) ∧ rest.length ≤ cs.length ∧
      Leaves (x :: (rounds (ignoreAnd barParser alternativeParser) rest).1,
        (rounds (ignoreAnd barParser alternativeParser) rest).2) cs alts tail := by
  have hplain : ∀ c ∈ tail.head?, isSymbolChar c = false ∧ isGap c = false ∧ c ≠ '|' := by
    intro c hc
    have hbody := mt isBodyChar_iff.mpr (Bool.eq_false_iff.mp (htail c hc))
    push Not at hbody
    exact ⟨Bool.eq_false_iff.mpr hbody.1.1, Bool.eq_false_iff.mpr hbody.1.2, hbody.2⟩
  induction h generalizing cs with
  | @last alt run h =>
    obtain ⟨⟨x, rest⟩, hfirst, hleaves⟩ :=
      leaves_alternative h (fun c hc => ⟨(hplain c hc).1, (hplain c hc).2.1⟩) hcs
    have hbar := barParser_of_ne hleaves.rest fun c hc => (hplain c hc).2.2
    have hround : ignoreAnd barParser alternativeParser rest = none := by
      rw [ignoreAnd, map, andThen, hbar]
      rfl
    refine ⟨x, rest, hfirst, hleaves.le, ?_⟩
    rw [rounds_of_none hround]
    exact ⟨congrArg (fun x => [x]) hleaves.value, hleaves.rest, hleaves.le⟩
  | @bar alt alts run behind h _ ih =>
    have hbar : ∀ c ∈ ('|' :: (behind ++ tail)).head?,
        isSymbolChar c = false ∧ isGap c = false := by
      intro c hc
      obtain rfl := Option.some.inj hc
      exact ⟨by decide +kernel, by decide⟩
    rw [List.append_assoc, List.cons_append] at hcs
    obtain ⟨⟨x, rest⟩, hfirst, hleaves⟩ := leaves_alternative h hbar hcs
    obtain ⟨y, rest', hsecond, hle, hrest⟩ := ih (dropWhile_dropWhile_gap (behind ++ tail))
    have hbehind : rest.dropWhile isGap = '|' :: (behind ++ tail) := hleaves.rest
    have hround : ignoreAnd barParser alternativeParser rest = some (y, rest') :=
      (ignoreAnd_of_eq (barParser_of_bar hbehind)).trans hsecond
    have hshort : ((behind ++ tail).dropWhile isGap).length < rest.length := by
      have hdrop := (List.dropWhile_sublist isGap (l := behind ++ tail)).length_le
      have hsub := (List.dropWhile_sublist isGap (l := rest)).length_le
      rw [hbehind, List.length_cons] at hsub
      omega
    have hlt := Nat.lt_of_le_of_lt hle hshort
    refine ⟨x, rest, hfirst, hleaves.le, ?_⟩
    rw [rounds_of_eq hround hlt]
    refine ⟨congrArg₂ List.cons hleaves.value hrest.value, hrest.rest, ?_⟩
    exact hrest.le.trans (hshort.le.trans hleaves.le)

/-! ## a line -/

theorem arrowParser_append {arrow : List Char} (h : arrow ∈ arrows) (body : List Char) :
    arrowParser (arrow ++ body) = some (arrow, body) := by
  simp only [arrows, List.mem_cons, List.not_mem_nil, or_false] at h
  rcases h with rfl | rfl | rfl <;> rfl

theorem mem_arrows_of_arrowParser {cs arrow body : List Char}
    (h : arrowParser cs = some (arrow, body)) : arrow ∈ arrows ∧ cs = arrow ++ body := by
  rcases orElse_eq_some h with h | h
  · rcases orElse_eq_some h with h | h
    · obtain ⟨rfl, rfl⟩ := just_eq_some h
      exact ⟨by decide, rfl⟩
    · obtain ⟨rfl, rfl⟩ := just_eq_some h
      exact ⟨by decide, rfl⟩
  · obtain ⟨rfl, rfl⟩ := just_eq_some h
    exact ⟨by decide, rfl⟩

theorem arrowParser_of_error {cs : List Char} {f : Found} (h : afterArrow cs = .error f) :
    arrowParser cs = none := by
  rw [Option.eq_none_iff_forall_ne_some]
  rintro ⟨arrow, body⟩ harrow
  rw [afterArrow_eq_ok_iff.mpr ⟨arrow, mem_arrows_of_arrowParser harrow⟩] at h
  cases h

theorem perhaps_of_hash (comment : List Char) :
    ∃ x, perhaps commentParser ('#' :: comment) = some (x, []) := by
  refine ⟨some (['#'], comment), ?_⟩
  have hcomment : commentParser ('#' :: comment) = some ((['#'], comment), []) := by
    rw [commentParser, andThen_of_eq (rfl : just ['#'] ('#' :: comment) = some (['#'], comment)),
      repeated, rounds_anyChar]
    rfl
  rw [perhaps, orElse, map, hcomment]
  rfl

theorem perhaps_of_ne {tail : List Char} (h : ∀ c ∈ tail.head?, c ≠ '#') :
    perhaps commentParser tail = some (none, tail) := by
  have hjust : just ['#'] tail = none := by
    cases tail with
    | nil => rfl
    | cons c tail => simp [just, (h c rfl).symm]
  rw [perhaps, orElse, map, commentParser, andThen, hjust]
  rfl

theorem ruleParser_of_none {cs : List Char}
    (h : andIgnore (paddedBy symbolParser gapParser) arrowParser cs = none) :
    ruleParser.parse cs = none := by
  have hboth : andThen (andIgnore (paddedBy symbolParser gapParser) arrowParser)
      (separatedBy alternativeParser barParser) cs = none := by
    rw [andThen, h, Option.bind_none]
  rw [parse, ruleParser, andIgnore_of_none (andIgnore_of_none (andIgnore_of_none hboth _) _),
    Option.map_none]

/-- behind the arrow there is a body, and then a comment or nothing -/
theorem ruleParser_of_head {cs body : List Char} {head : String}
    (h : andIgnore (paddedBy symbolParser gapParser) arrowParser cs = some (head, body)) :
    ruleParser.parse cs =
      (match body.dropWhile isBodyChar with
      | [] | '#' :: _ => .ok (head, alternativesOf (body.takeWhile isBodyChar))
      | c :: _ => .error (.char c) : Except Found (String × List (List String))).toOption := by
  obtain ⟨run, tail, rfl, hrun, htail⟩ := Text.exists_run isBodyChar body
  rw [Text.takeWhile_run hrun htail, Text.dropWhile_run hrun htail]
  have halts := alternatives_alternativesOf hrun
  obtain ⟨x, rest, hfirst, -, hleaves⟩ :=
    leaves_alternatives halts htail (rfl : (run ++ tail).dropWhile isGap = _)
  obtain ⟨r, hr⟩ : ∃ r, separatedBy alternativeParser barParser (run ++ tail) = some r ∧
      Leaves r (run ++ tail) (alternativesOf run) tail := by
    refine ⟨_, ?_, hleaves⟩
    rw [separatedBy, hfirst]
  obtain ⟨alts, rest⟩ := r
  obtain ⟨hbody, hvalue, hbehind, -⟩ := hr
  obtain rfl : alts = alternativesOf run := hvalue
  have hrest : gapParser rest = some (rest.takeWhile isGap, tail) := by
    rw [gapParser_eq]
    exact congrArg (fun r => some (_, r)) hbehind
  have hgap : andIgnore (andThen (andIgnore (paddedBy symbolParser gapParser) arrowParser)
      (separatedBy alternativeParser barParser)) gapParser cs =
        some ((head, alternativesOf run), tail) := by
    have hboth := andThen_of_eq (q := separatedBy alternativeParser barParser) h
    rw [hbody, Option.map_some] at hboth
    rw [andIgnore_of_eq hboth, hrest]
    rfl
  have hfinish : ∀ {x left}, perhaps commentParser tail = some (x, left) →
      ruleParser.parse cs = (atEnd left).map fun _ => (head, alternativesOf run) := by
    intro x left hcomment
    have hline := andIgnore_of_eq (q := perhaps commentParser) hgap
    rw [hcomment, Option.map_some] at hline
    rw [parse, ruleParser, andIgnore_of_eq hline, Option.map_map]
    rfl
  split
  · exact hfinish (perhaps_of_ne fun c hc => nomatch hc)
  · obtain ⟨x, hcomment⟩ := perhaps_of_hash _
    exact hfinish hcomment
  · rename_i c tail hhash
    refine hfinish (perhaps_of_ne fun d hd => ?_)
    obtain rfl := Option.some.inj hd
    exact hhash

theorem parse_ruleParser {cs : List Char} (hcs : ∀ c ∈ cs.head?, isGap c = false) :
    ruleParser.parse cs = (read cs).toOption := by
  have hgap : cs.dropWhile isGap = cs := Text.dropWhile_run (List.forall_mem_nil _) hcs
  obtain ⟨name, rest, rfl, hname, hrest⟩ := Text.exists_run isSymbolChar cs
  unfold read
  rw [Text.takeWhile_run hname hrest, Text.dropWhile_run hname hrest]
  cases name with
  | nil =>
    rw [List.nil_append] at hgap ⊢
    have hhead : paddedBy symbolParser gapParser rest = none := by
      rw [padded_eq, hgap, symbolParser_of_head hrest, Option.map_none]
    exact ruleParser_of_none (andIgnore_of_none hhead _)
  | cons c name =>
    have hn : IsName (String.ofList (c :: name)) := isName_ofList (List.cons_ne_nil c name) hname
    have hhead : paddedBy symbolParser gapParser (c :: name ++ rest) =
        some (String.ofList (c :: name), rest.dropWhile isGap) := by
      have hsymbol := symbolParser_of_name hn hrest
      rw [String.toList_ofList] at hsymbol
      rw [padded_eq, hgap, hsymbol, Option.map_some]
    dsimp only
    cases harrow : afterArrow (rest.dropWhile isGap) with
    | error f =>
      refine ruleParser_of_none ?_
      rw [andIgnore_of_eq hhead, arrowParser_of_error harrow, Option.map_none]
    | ok body =>
      obtain ⟨arrow, hmem, hrest'⟩ := afterArrow_eq_ok_iff.mp harrow
      have hbehind : andIgnore (paddedBy symbolParser gapParser) arrowParser (c :: name ++ rest) =
          some (String.ofList (c :: name), body) := by
        rw [andIgnore_of_eq hhead, hrest', arrowParser_append hmem, Option.map_some]
      exact ruleParser_of_head hbehind

/-! ## a text -/

theorem not_isGap_head_trim (raw : List Char) :
    ∀ c ∈ (Text.trim raw).head?, isGap c = false := by
  intro c hc
  have hblank := Text.not_isBlank_head_trim raw c hc
  rw [Bool.eq_false_iff]
  intro hgap
  simp only [isGap, Bool.or_eq_true, beq_iff_eq] at hgap
  rcases hgap with rfl | rfl
  · revert hblank
    decide
  · revert hblank
    decide

theorem parseLines_eq (n : Nat) (ls : List (List Char)) :
    parseLines ruleParser n ls = (readLines n ls).mapError (·.line) := by
  induction ls generalizing n with
  | nil => rfl
  | cons raw ls ih =>
    rw [parseLines, readLines]
    cases isSilent (Text.trim raw) with
    | true =>
      rw [if_pos rfl, if_pos rfl]
      exact ih (n + 1)
    | false =>
      rw [if_neg Bool.false_ne_true, if_neg Bool.false_ne_true,
        parse_ruleParser (not_isGap_head_trim raw)]
      cases read (Text.trim raw) with
      | error f => rfl
      | ok rule =>
        show (parseLines ruleParser (n + 1) ls).map _ =
          Except.mapError _ ((readLines (n + 1) ls).map _)
        rw [ih]
        cases readLines (n + 1) ls <;> rfl

end RuleLine

theorem parseRules_eq (text : String) : parseRules text = (readRules text).mapError (·.line) :=
  RuleLine.parseLines_eq 1 _

/-- **The parser accepts exactly the grammar of rule lines.**  A text is read as the rules that it
renders and as no others, and it is refused at the first line that is none of blank, comment and
rule.  The reader that says what stands at the place of a misreading agrees with it. -/
theorem parseRules_exact (text : String) :
    (∀ rs, parseRules text = .ok rs ↔ Rendering 1 text.toList rs) ∧
    (∀ n, parseRules text = .error n ↔
      ∃ before l after, Text.lines text = before ++ l :: after ∧ n = before.length + 1 ∧
        (∀ k ∈ before, ∃ said, RuleLine.Line k said) ∧ ¬ ∃ said, RuleLine.Line l said) ∧
    parseRules text = (readRules text).mapError (·.line) := by
  obtain ⟨hread, hrefused⟩ := readRules_exact text
  refine ⟨fun rs => ?_, fun n => ?_, parseRules_eq text⟩
  · rw [← hread, parseRules_eq]
    cases readRules text <;> simp [Except.mapError]
  · rw [← hrefused, parseRules_eq]
    cases readRules text with
    | error m =>
      obtain ⟨line, found⟩ := m
      simp [Except.mapError]
    | ok rs => simp [Except.mapError]

end SpanishSyntax
