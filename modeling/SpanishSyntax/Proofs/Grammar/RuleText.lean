import SpanishSyntax.Proofs.Grammar.RuleParts
import SpanishSyntax.Proofs.Text.Pieces

/-!
# Reading rules and writing them

A rule is `Writable` if its names are made of symbol characters and its body is not a lone `ε`,
which is read as the empty sequence.  The rules of a text are writable (`writable_of_readRules`),
and lines that show productions with writable rules are read as these rules, one a line
(`readRules_joined`, `readRules_unlines`).
-/

namespace SpanishSyntax

namespace RuleLine

/-! ## what is read -/

structure Writable (rule : String × List String) : Prop where
  head : IsName rule.1
  names : ∀ n ∈ rule.2, IsName n
  ne_epsilon : rule.2 ≠ ["ε"]

/-- each alternative under the head -/
def rules (r : RuleLine) : List (String × List String) := r.alternatives.map fun b => (r.head, b)

theorem alternative_ne_epsilon (cs : List Char) : alternative cs ≠ ["ε"] := by
  unfold alternative
  split
  · exact (List.cons_ne_nil _ _).symm
  · rename_i h
    exact h

theorem alternative_eq {cs : List Char} {names : List String}
    (h : (Text.words isGap cs).map String.ofList = names) (hne : names ≠ ["ε"]) :
    alternative cs = names := by
  unfold alternative
  rw [h]
  split
  · exact absurd rfl hne
  · rfl

theorem alternative_cons_gap {c : Char} (h : isGap c = true) (cs : List Char) :
    alternative (c :: cs) = alternative cs := by
  have hwords : Text.words isGap (c :: cs) = Text.words isGap cs := by
    rw [Text.words, Text.pieces_cons_sep h]
    rfl
  unfold alternative
  rw [hwords]

theorem isName_of_mem_alternativesOf {body : List Char} (hbody : ∀ c ∈ body, isBodyChar c = true)
    {alt : List String} (h : alt ∈ alternativesOf body) : ∀ n ∈ alt, IsName n := by
  obtain ⟨piece, hpiece, rfl⟩ := List.mem_map.mp h
  have hname : ∀ n ∈ (Text.words isGap piece).map String.ofList, IsName n := by
    intro n hn
    obtain ⟨w, hw, rfl⟩ := List.mem_map.mp hn
    obtain ⟨hne, hchars⟩ := Text.mem_words hw
    refine isName_ofList hne fun c hc => ?_
    obtain ⟨hgap, hin⟩ := hchars c hc
    obtain ⟨hbar, hin⟩ := Text.mem_pieces hpiece c hin
    have hc := hbody c hin
    rw [isBodyChar, hgap, hbar, Bool.or_false, Bool.or_false] at hc
    exact hc
  unfold alternative
  split
  · intro n hn
    cases hn
  · exact hname

/-- a line with something to say has an alternative, and its rules can be written -/
theorem writable_of_read {cs : List Char} {n : Nat} {head : String} {alts : List (List String)}
    (h : read cs = .ok (head, alts)) :
    alts ≠ [] ∧ ∀ rule ∈ (⟨n, head, alts⟩ : RuleLine).rules, Writable rule := by
  obtain ⟨_, _, body, _, hparts⟩ := exists_parts h
  obtain rfl := hparts.alts_eq
  refine ⟨fun hnil => Text.pieces_ne_nil _ body (List.map_eq_nil_iff.mp hnil), fun rule hrule => ?_⟩
  obtain ⟨alt, halt, rfl⟩ := List.mem_map.mp hrule
  refine ⟨hparts.isName_head, isName_of_mem_alternativesOf hparts.body_chars halt, ?_⟩
  obtain ⟨piece, _, rfl⟩ := List.mem_map.mp halt
  exact alternative_ne_epsilon piece

theorem writable_of_readLines {line : Nat} {ls : List (List Char)} {rs : List RuleLine}
    (h : readLines line ls = .ok rs) :
    ∀ r ∈ rs, r.alternatives ≠ [] ∧ ∀ rule ∈ r.rules, Writable rule := by
  induction ls generalizing line rs with
  | nil =>
    cases h
    exact fun _ hr => nomatch hr
  | cons raw ls ih =>
    unfold readLines at h
    dsimp only at h
    split at h
    · exact ih h
    · cases hread : read (Text.trim raw) with
      | error f =>
        rw [hread] at h
        cases h
      | ok rule =>
        obtain ⟨head, alts⟩ := rule
        rw [hread] at h
        dsimp only at h
        cases hrest : readLines (line + 1) ls with
        | error m =>
          rw [hrest] at h
          cases h
        | ok rest =>
          rw [hrest] at h
          cases h
          exact List.forall_mem_cons.mpr ⟨writable_of_read hread, ih hrest⟩

end RuleLine

theorem writable_of_readRules {text : String} {rs : List RuleLine} (h : readRules text = .ok rs) :
    ∀ r ∈ rs, r.alternatives ≠ [] ∧ ∀ rule ∈ r.rules, RuleLine.Writable rule :=
  RuleLine.writable_of_readLines h

theorem Grammar.ofText_eq_ok_iff {start : String} {terminals : List String} {text : String}
    {g : Grammar} : ofText start terminals text = .ok g ↔ ∃ rs, readRules text = .ok rs ∧
      (Declaration.ofRuleLines start terminals rs).build = .ok g := by
  unfold ofText
  constructor
  · intro h
    cases hread : readRules text with
    | error m =>
      rw [hread] at h
      cases h
    | ok rs =>
      rw [hread] at h
      dsimp only at h
      refine ⟨rs, rfl, ?_⟩
      split at h
      · cases h
      · rename_i hbuild
        rw [hbuild, Except.ok.inj h]
  · rintro ⟨rs, hread, hbuild⟩
    rw [hread]
    dsimp only
    rw [hbuild]

/-! ## what is written -/

/-- the rule that a production came from, without tags -/
def Production.rule (p : Production) : String × List String := (p.head, p.body.map Symbol.name)

open RuleLine

section

variable {p : Production}

theorem RuleLine.Writable.isName_head (h : Writable p.rule) : IsName p.head := h.head

theorem mem_sequenceText {ss : List Symbol} (h : ∀ n ∈ ss.map Symbol.name, IsName n) :
    ∀ c ∈ (Symbol.sequenceText ss).toList, isSymbolChar c = true ∨ c = ' ' := by
  intro c hc
  cases ss with
  | nil => exact .inl (isName_epsilon.2 c hc)
  | cons s ss =>
    rcases Text.mem_joined hc with hc | ⟨n, hn, hc⟩
    · exact .inr (List.mem_singleton.mp hc)
    · exact .inl ((h n hn).2 c hc)

/-- the text of a body ends with a name -/
theorem exists_sequenceText_eq_append {ss : List Symbol} (h : ∀ n ∈ ss.map Symbol.name, IsName n) :
    ∃ front n, IsName n ∧ (Symbol.sequenceText ss).toList = front ++ n.toList := by
  cases ss with
  | nil => exact ⟨[], "ε", isName_epsilon, rfl⟩
  | cons s ss =>
    obtain ⟨front, n, hn, htext⟩ := Text.exists_joined_eq_append " "
      (List.cons_ne_nil s.name (ss.map Symbol.name))
    exact ⟨front, n, h n hn, htext⟩

theorem alternative_sequenceText {ss : List Symbol} (h : ∀ n ∈ ss.map Symbol.name, IsName n)
    (hne : ss.map Symbol.name ≠ ["ε"]) :
    alternative (' ' :: (Symbol.sequenceText ss).toList) = ss.map Symbol.name := by
  rw [alternative_cons_gap (by rfl)]
  cases ss with
  | nil => decide
  | cons s ss =>
    refine alternative_eq ?_ hne
    rw [Symbol.sequenceText, Text.words_joined (s := ' ') (by rfl) (by rfl)
      fun n hn => ⟨(h n hn).1, fun c hc => not_isGap_of_isSymbolChar ((h n hn).2 c hc)⟩,
      List.map_map]
    conv => rhs; rw [← List.map_id ((s :: ss).map Symbol.name)]
    exact List.map_congr_left fun n _ => String.ofList_toList

theorem toList_text (p : Production) :
    p.text.toList = p.head.toList ++ ' ' :: '→' :: ' ' :: (Symbol.sequenceText p.body).toList := by
  rw [Production.text, String.toList_append, String.toList_append, List.append_assoc]
  rfl

theorem read_text (h : Writable p.rule) :
    RuleLine.read p.text.toList = .ok (p.head, [p.body.map Symbol.name]) := by
  have hletter : ∀ c ∈ ' ' :: (Symbol.sequenceText p.body).toList,
      isSymbolChar c = true ∨ c = ' ' :=
    List.forall_mem_cons.mpr ⟨.inr rfl, mem_sequenceText h.names⟩
  have hbody : ∀ c ∈ ' ' :: (Symbol.sequenceText p.body).toList, isBodyChar c = true := by
    intro c hc
    rcases hletter c hc with hc | rfl
    · simp [isBodyChar, hc]
    · simp [isBodyChar, isGap]
  have hbar : ∀ c ∈ ' ' :: (Symbol.sequenceText p.body).toList, (c == '|') = false := by
    intro c hc
    rcases hletter c hc with hc | rfl
    · exact ne_bar_of_isSymbolChar hc
    · rfl
  have halts : [p.body.map Symbol.name] =
      alternativesOf (' ' :: (Symbol.sequenceText p.body).toList) := by
    rw [alternativesOf, Text.pieces_of_no_sep hbar, List.map_singleton,
      alternative_sequenceText h.names h.ne_epsilon]
  have hsplit : p.text.toList = p.head.toList ++ ([' '] ++ (['→'] ++
      ((' ' :: (Symbol.sequenceText p.body).toList) ++ []))) := by
    rw [toList_text, List.append_nil]
    rfl
  have hparts : Parts p.text.toList p.head [p.body.map Symbol.name] [' '] ['→']
      (' ' :: (Symbol.sequenceText p.body).toList) [] :=
    ⟨hsplit, h.isName_head, List.forall_mem_singleton.mpr rfl, by decide, hbody, halts, .inl rfl⟩
  exact hparts.read_eq

/-! ## lines -/

theorem trim_text (h : Writable p.rule) : Text.trim p.text.toList = p.text.toList := by
  obtain ⟨front, n, hn, hfront⟩ := exists_sequenceText_eq_append h.names
  refine Text.trim_eq_self (fun c hc => ?_) fun c hc => ?_
  · rw [toList_text, List.head?_append_of_ne_nil _ h.isName_head.1] at hc
    exact not_isBlank_of_isSymbolChar (h.isName_head.2 c (List.mem_of_mem_head? hc))
  · have htext : p.text.toList = (p.head.toList ++ ' ' :: '→' :: ' ' :: front) ++ n.toList := by
      rw [toList_text, hfront, List.append_assoc]
      rfl
    rw [htext, List.getLast?_append_of_ne_nil _ hn.1] at hc
    exact not_isBlank_of_isSymbolChar (hn.2 c (List.mem_of_getLast? hc))

theorem isSilent_text (h : Writable p.rule) : isSilent p.text.toList = false := by
  rw [toList_text]
  cases hhead : p.head.toList with
  | nil => exact absurd hhead h.isName_head.1
  | cons c cs =>
    have hc : isSymbolChar c = true := h.isName_head.2 c (hhead ▸ List.mem_cons_self)
    show (c == '#') = false
    rw [beq_eq_false_iff_ne]
    rintro rfl
    rw [isSymbolChar_hash] at hc
    cases hc

theorem newline_not_mem_text (h : Writable p.rule) : '\n' ∉ p.text.toList := by
  have hsymbol : isSymbolChar '\n' = false := by decide +kernel
  rw [toList_text, List.mem_append]
  rintro (hc | hc)
  · rw [h.isName_head.2 _ hc] at hsymbol
    cases hsymbol
  · have hc : '\n' ∈ (Symbol.sequenceText p.body).toList := by simpa using hc
    rcases mem_sequenceText h.names _ hc with hc | hc
    · rw [hc] at hsymbol
      cases hsymbol
    · revert hc
      decide

end

theorem readLines_text {ps : List Production} (h : ∀ p ∈ ps, Writable p.rule)
    (tail : List (List Char)) (htail : ∀ n, readLines n tail = .ok []) (line : Nat) :
    ∃ rs, readLines line (ps.map (·.text.toList) ++ tail) = .ok rs ∧
      rs.flatMap RuleLine.rules = ps.map Production.rule := by
  induction ps generalizing line with
  | nil => exact ⟨[], htail line, rfl⟩
  | cons p ps ih =>
    obtain ⟨hp, hps⟩ := List.forall_mem_cons.mp h
    obtain ⟨rs, hread, hrules⟩ := ih hps (line + 1)
    refine ⟨⟨line, p.head, [p.body.map Symbol.name]⟩ :: rs, ?_, congrArg (List.cons p.rule) hrules⟩
    rw [List.map_cons, List.cons_append, readLines, trim_text hp, isSilent_text hp, read_text hp,
      hread]
    rfl

section

variable {ps : List Production}

theorem newline_not_mem_texts (h : ∀ p ∈ ps, Writable p.rule) :
    ∀ l ∈ ps.map Production.text, '\n' ∉ l.toList := by
  intro l hl
  obtain ⟨p, hp, rfl⟩ := List.mem_map.mp hl
  exact newline_not_mem_text (h p hp)

theorem readRules_joined (h : ∀ p ∈ ps, Writable p.rule) :
    ∃ rs, readRules (Text.joined "\n" (ps.map Production.text)) = .ok rs ∧
      rs.flatMap RuleLine.rules = ps.map Production.rule := by
  by_cases hps : ps = []
  · subst hps
    exact ⟨[], rfl, rfl⟩
  · have hne : ps.map Production.text ≠ [] := fun hnil => hps (List.map_eq_nil_iff.mp hnil)
    obtain ⟨rs, hread, hrules⟩ := readLines_text h [] (fun _ => rfl) 1
    refine ⟨rs, ?_, hrules⟩
    rw [readRules, Text.lines_joined hne (newline_not_mem_texts h), List.map_map]
    rw [List.append_nil] at hread
    exact hread

theorem readRules_unlines (h : ∀ p ∈ ps, Writable p.rule) :
    ∃ rs, readRules (Text.unlines (ps.map Production.text)) = .ok rs ∧
      rs.flatMap RuleLine.rules = ps.map Production.rule := by
  obtain ⟨rs, hread, hrules⟩ := readLines_text h [[]] (fun _ => rfl) 1
  refine ⟨rs, ?_, hrules⟩
  rw [readRules, Text.lines_unlines (newline_not_mem_texts h), List.map_map]
  exact hread

end

end SpanishSyntax
