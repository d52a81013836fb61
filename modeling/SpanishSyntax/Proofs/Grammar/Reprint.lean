import SpanishSyntax.Proofs.Grammar.RuleText
import SpanishSyntax.Proofs.Grammar.Valid

/-!
# A grammar is read back from its productions

What rule lines declare depends only on their rules, one after the other: an alternative may as well
stand on a line of its own (`Declaration.ofRuleLines_eq`).  The productions of a grammar are these
rules with tags, so lines that show them declare the same again (`Grammar.ofText_reprint`).
-/

namespace SpanishSyntax

namespace Declaration

/-- every head is a nonterminal, in the order of the rules -/
def ofRules (start : String) (terminals : List String) (rules : List (String × List String)) :
    Declaration :=
  ofItems start (terminals.map .terminal ++ rules.map (fun r => .nonterminal r.1) ++
    rules.map fun r => .rule r.1 r.2)

theorem add_of_mem {d : Declaration} {n : String} (h : n ∈ d.nonterminals) :
    d.add (.nonterminal n) = d :=
  if_pos h

theorem mem_add_nonterminal (d : Declaration) (n : String) :
    n ∈ (d.add (.nonterminal n)).nonterminals := by
  unfold add
  dsimp only
  split
  · assumption
  · exact List.mem_append_right _ (List.mem_singleton_self n)

theorem foldl_add_same {n : String} (alts : List (List String)) {d : Declaration}
    (h : n ∈ d.nonterminals) : (alts.map fun _ => Item.nonterminal n).foldl add d = d := by
  induction alts with
  | nil => rfl
  | cons _ alts ih => rw [List.map_cons, List.foldl_cons, add_of_mem h, ih]

/-- a head is declared once, however many alternatives it has -/
theorem foldl_add_heads {rs : List RuleLine} (h : ∀ r ∈ rs, r.alternatives ≠ [])
    (d : Declaration) :
    ((rs.flatMap RuleLine.rules).map fun r => Item.nonterminal r.1).foldl add d =
      (rs.map fun r => Item.nonterminal r.head).foldl add d := by
  induction rs generalizing d with
  | nil => rfl
  | cons r rs ih =>
    obtain ⟨hr, hrs⟩ := List.forall_mem_cons.mp h
    obtain ⟨alt, alts, halts⟩ := List.exists_cons_of_ne_nil hr
    have hheads : r.rules.map (fun r => Item.nonterminal r.1) =
        .nonterminal r.head :: alts.map fun _ => .nonterminal r.head := by
      rw [RuleLine.rules, halts, List.map_map]
      rfl
    rw [List.flatMap_cons, List.map_append, List.foldl_append, hheads, List.foldl_cons,
      foldl_add_same alts (mem_add_nonterminal d r.head), ih hrs]
    rfl

theorem ofRuleLines_eq {rs : List RuleLine} (h : ∀ r ∈ rs, r.alternatives ≠ []) (start : String)
    (terminals : List String) :
    ofRuleLines start terminals rs = ofRules start terminals (rs.flatMap RuleLine.rules) := by
  have hrules : rs.flatMap itemsOfRuleLine =
      (rs.flatMap RuleLine.rules).map fun r => Item.rule r.1 r.2 := by
    rw [List.map_flatMap]
    refine List.flatMap_congr fun r _ => ?_
    rw [itemsOfRuleLine, RuleLine.rules, List.map_map]
    rfl
  rw [ofRuleLines, ofRules, ofItems_append, ofItems_append, ofItems_append, ofItems_append,
    foldl_add_heads h, hrules]

/-! ## rules -/

theorem rules_foldl_nonterminals (ns : List String) (d : Declaration) :
    ((ns.map Item.nonterminal).foldl add d).rules = d.rules := by
  induction ns generalizing d with
  | nil => rfl
  | cons n ns ih =>
    rw [List.map_cons, List.foldl_cons, ih]
    unfold add
    dsimp only
    split <;> rfl

theorem rules_foldl_terminals (ts : List String) (d : Declaration) :
    ((ts.map Item.terminal).foldl add d).rules = d.rules := by
  induction ts generalizing d with
  | nil => rfl
  | cons t ts ih => exact ih (d.add (.terminal t))

theorem rules_foldl_rules (rules : List (String × List String)) (d : Declaration) :
    ((rules.map fun r => Item.rule r.1 r.2).foldl add d).rules = d.rules ++ rules := by
  induction rules generalizing d with
  | nil => exact (List.append_nil _).symm
  | cons r rules ih =>
    rw [List.map_cons, List.foldl_cons, ih]
    show (d.rules ++ [r]) ++ rules = d.rules ++ r :: rules
    rw [List.append_assoc, List.singleton_append]

theorem rules_ofRules (start : String) (terminals : List String)
    (rules : List (String × List String)) : (ofRules start terminals rules).rules = rules := by
  have hheads : (rules.map fun r => Item.nonterminal r.1) =
      (rules.map Prod.fst).map Item.nonterminal := by
    rw [List.map_map]
    rfl
  rw [ofRules, ofItems_append, ofItems_append, rules_foldl_rules, hheads, rules_foldl_nonterminals,
    ofItems, rules_foldl_terminals]
  exact List.nil_append rules

/-! ## tags -/

variable {d : Declaration}

theorem name_of_tag? {n : String} {s : Symbol} (h : d.tag? n = some s) : s.name = n := by
  unfold tag? at h
  split at h
  · cases h
    rfl
  · split at h
    · cases h
      rfl
    · cases h

theorem names_of_tagBody {head : String} {names : List String} {body : List Symbol}
    (h : d.tagBody head names = .ok body) : body.map Symbol.name = names := by
  induction names generalizing body with
  | nil =>
    cases h
    rfl
  | cons n names ih =>
    unfold tagBody at h
    cases ht : d.tag? n with
    | none => simp [ht] at h
    | some s =>
      cases hb : d.tagBody head names with
      | error e => simp [ht, hb, Except.map] at h
      | ok rest =>
        simp only [ht, hb, Except.map, Except.ok.injEq] at h
        subst h
        rw [List.map_cons, name_of_tag? ht, ih hb]

theorem rule_of_tagRule {rule : String × List String} {p : Production}
    (h : d.tagRule rule = .ok p) : p.rule = rule := by
  unfold tagRule at h
  split at h
  · cases hb : d.tagBody rule.1 rule.2 with
    | error e => simp [hb, Except.map] at h
    | ok body =>
      simp only [hb, Except.map, Except.ok.injEq] at h
      subst h
      exact Prod.ext rfl (names_of_tagBody hb)
  · cases h

theorem rules_of_tagRules {rules : List (String × List String)} {ps : List Production}
    (h : d.tagRules rules = .ok ps) : ps.map Production.rule = rules := by
  induction rules generalizing ps with
  | nil =>
    cases h
    rfl
  | cons r rules ih =>
    unfold tagRules at h
    cases hr : d.tagRule r with
    | error e => simp [hr] at h
    | ok p =>
      cases hrs : d.tagRules rules with
      | error e => simp [hr, hrs, Except.map] at h
      | ok rest =>
        simp only [hr, hrs, Except.map, Except.ok.injEq] at h
        subst h
        rw [List.map_cons, rule_of_tagRule hr, ih hrs]

theorem rules_of_build {g : Grammar} (h : d.build = .ok g) :
    g.productions.map Production.rule = d.rules := by
  obtain ⟨_, ps, hps, rfl⟩ := build_inv h
  exact rules_of_tagRules hps

end Declaration

namespace Grammar

/-- **Reading inverts printing**: a grammar that a text gives is given by its productions again, one
a line, whether or not the last line is ended. -/
theorem ofText_reprint {start : String} {terminals : List String} {text : String} {g : Grammar}
    (h : ofText start terminals text = .ok g) :
    ofText start terminals (Text.joined "\n" (g.productions.map Production.text)) = .ok g ∧
      ofText start terminals (Text.unlines (g.productions.map Production.text)) = .ok g := by
  obtain ⟨rs, hread, hbuild⟩ := ofText_eq_ok_iff.mp h
  have hrs := writable_of_readRules hread
  rw [Declaration.ofRuleLines_eq fun r hr => (hrs r hr).1] at hbuild
  have hrules : g.productions.map Production.rule = rs.flatMap RuleLine.rules := by
    rw [Declaration.rules_of_build hbuild, Declaration.rules_ofRules]
  have hwritable : ∀ p ∈ g.productions, RuleLine.Writable p.rule := by
    intro p hp
    have hrule : p.rule ∈ rs.flatMap RuleLine.rules := hrules ▸ List.mem_map_of_mem hp
    obtain ⟨r, hr, hrule⟩ := List.mem_flatMap.mp hrule
    exact (hrs r hr).2 p.rule hrule
  have hagain : ∀ again, (∃ rs', readRules again = .ok rs' ∧
      rs'.flatMap RuleLine.rules = g.productions.map Production.rule) →
      ofText start terminals again = .ok g := by
    rintro again ⟨rs', hread', hrules'⟩
    refine ofText_eq_ok_iff.mpr ⟨rs', hread', ?_⟩
    rw [Declaration.ofRuleLines_eq fun r hr => (writable_of_readRules hread' r hr).1, hrules',
      hrules, hbuild]
  exact ⟨hagain _ (readRules_joined hwritable), hagain _ (readRules_unlines hwritable)⟩

/-- three arrows, a comment, a head on two lines, and `ε` both as a name and for an empty body -/
def mixedText : String := "# mixed\nS -> x A | ε S ε\nA → | y ε  # empty or not\n\nS ::= ε"

theorem reprint_mixed : ∃ g, ofText "S" ["x", "y", "ε"] mixedText = .ok g ∧
    g.productions.map Production.text = ["S → x A", "S → ε S ε", "A → ε", "A → y ε", "S → ε"] ∧
    ofText "S" ["x", "y", "ε"] "S → x A\nS → ε S ε\nA → ε\nA → y ε\nS → ε" = .ok g ∧
    ofText "S" ["x", "y", "ε"] "S → x A\nS → ε S ε\nA → ε\nA → y ε\nS → ε\n" = .ok g := by
  have hread : (match ofText "S" ["x", "y", "ε"] mixedText with
      | .ok g => decide (g.productions.map Production.text =
          ["S → x A", "S → ε S ε", "A → ε", "A → y ε", "S → ε"])
      | .error _ => false) = true := by
    decide +kernel
  cases hg : ofText "S" ["x", "y", "ε"] mixedText with
  | error e => simp [hg] at hread
  | ok g =>
    simp only [hg, decide_eq_true_eq] at hread
    obtain ⟨hjoined, hunlines⟩ := ofText_reprint hg
    rw [hread] at hjoined hunlines
    exact ⟨g, rfl, hread, hjoined, hunlines⟩

end Grammar

end SpanishSyntax
