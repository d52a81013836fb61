import Mathlib.Data.List.Induction
import Mathlib.Data.List.Sort
import Mathlib.Data.String.Basic
import SpanishSyntax.Proofs.Ascending
import SpanishSyntax.Proofs.Grammar.Valid

/-!
# Which items give a grammar

`Declaration.WellFormed` lists what `Declaration.build` checks, without the order in which it is
checked, and `Declaration.assemble` is the grammar of a declaration that passes
(`build_eq_ok_iff`).  A declaration keeps of its items the set of terminals, the nonterminals in the
order of their first declaration and the rules as they come, so

* `grammar_of_items`   says of the items themselves when they give a grammar, and which one; items
                       in another order give the same, or fail in the same way, as long as rules and
                       first declarations of nonterminals keep theirs (`Item.Reordered`).
-/

namespace SpanishSyntax

namespace Declaration

variable {d : Declaration}

/-! ## checks -/

def Knows (d : Declaration) (n : String) : Prop := n ∈ d.terminals ∨ n ∈ d.nonterminals

/-- the symbol of a known name -/
def symbol (d : Declaration) (n : String) : Symbol :=
  if n ∈ d.terminals then .terminal n else .nonterminal n

def production (d : Declaration) (rule : String × List String) : Production :=
  ⟨rule.1, rule.2.map d.symbol⟩

def assemble (d : Declaration) : Grammar :=
  ⟨d.start, d.nonterminals, d.terminals, d.rules.map d.production⟩

structure WellFormed (d : Declaration) : Prop where
  apart : ∀ n ∈ d.nonterminals, n ∉ d.terminals
  start_mem : d.start ∈ d.nonterminals
  head_mem : ∀ r ∈ d.rules, r.1 ∈ d.nonterminals
  knows_body : ∀ r ∈ d.rules, ∀ n ∈ r.2, d.Knows n
  has_rule : ∀ n ∈ d.nonterminals, ∃ r ∈ d.rules, r.1 = n

theorem tag?_eq_some_iff {n : String} {s : Symbol} :
    d.tag? n = some s ↔ d.Knows n ∧ s = d.symbol n := by
  unfold tag? symbol Knows
  by_cases ht : n ∈ d.terminals
  · simp [ht, eq_comm]
  · by_cases hn : n ∈ d.nonterminals
    · simp [ht, hn, eq_comm]
    · simp [ht, hn]

theorem tagBody_eq_ok_iff {head : String} {names : List String} {body : List Symbol} :
    d.tagBody head names = .ok body ↔ (∀ n ∈ names, d.Knows n) ∧ body = names.map d.symbol := by
  induction names generalizing body with
  | nil => simp [tagBody, eq_comm]
  | cons n names ih =>
    unfold tagBody
    cases htag : d.tag? n with
    | none =>
      have hunknown : ¬ d.Knows n := fun hn => by
        rw [tag?_eq_some_iff.mpr ⟨hn, rfl⟩] at htag
        cases htag
      exact iff_of_false (fun h => nomatch h) fun h => hunknown (h.1 n List.mem_cons_self)
    | some s =>
      obtain ⟨hn, rfl⟩ := tag?_eq_some_iff.mp htag
      dsimp only
      rw [List.forall_mem_cons, List.map_cons]
      cases hbody : d.tagBody head names with
      | error e =>
        refine iff_of_false (fun h => nomatch h) fun h => ?_
        rw [ih.mpr ⟨h.1.2, rfl⟩] at hbody
        cases hbody
      | ok rest =>
        obtain ⟨hnames, rfl⟩ := ih.mp hbody
        rw [Except.map, Except.ok.injEq, eq_comm]
        exact ⟨fun h => ⟨⟨hn, hnames⟩, h⟩, fun h => h.2⟩

theorem tagRule_eq_ok_iff {rule : String × List String} {p : Production} :
    d.tagRule rule = .ok p ↔
      (rule.1 ∈ d.nonterminals ∧ ∀ n ∈ rule.2, d.Knows n) ∧ p = d.production rule := by
  unfold tagRule production
  by_cases hhead : rule.1 ∈ d.nonterminals
  · rw [if_pos hhead]
    cases hbody : d.tagBody rule.1 rule.2 with
    | error e =>
      refine iff_of_false (fun h => nomatch h) fun h => ?_
      rw [tagBody_eq_ok_iff.mpr ⟨h.1.2, rfl⟩] at hbody
      cases hbody
    | ok body =>
      obtain ⟨hnames, rfl⟩ := tagBody_eq_ok_iff.mp hbody
      rw [Except.map, Except.ok.injEq, eq_comm]
      exact ⟨fun h => ⟨⟨hhead, hnames⟩, h⟩, fun h => h.2⟩
  · rw [if_neg hhead]
    exact iff_of_false (fun h => nomatch h) fun h => hhead h.1.1

theorem tagRules_eq_ok_iff {rules : List (String × List String)} {ps : List Production} :
    d.tagRules rules = .ok ps ↔
      (∀ r ∈ rules, r.1 ∈ d.nonterminals ∧ ∀ n ∈ r.2, d.Knows n) ∧ ps = rules.map d.production := by
  induction rules generalizing ps with
  | nil => simp [tagRules, eq_comm]
  | cons r rules ih =>
    unfold tagRules
    rw [List.forall_mem_cons, List.map_cons]
    cases hrule : d.tagRule r with
    | error e =>
      refine iff_of_false (fun h => nomatch h) fun h => ?_
      rw [tagRule_eq_ok_iff.mpr ⟨h.1.1, rfl⟩] at hrule
      cases hrule
    | ok p =>
      obtain ⟨hr, rfl⟩ := tagRule_eq_ok_iff.mp hrule
      dsimp only
      cases hrest : d.tagRules rules with
      | error e =>
        refine iff_of_false (fun h => nomatch h) fun h => ?_
        rw [ih.mpr ⟨h.1.2, rfl⟩] at hrest
        cases hrest
      | ok rest =>
        obtain ⟨hrs, rfl⟩ := ih.mp hrest
        rw [Except.map, Except.ok.injEq, eq_comm]
        exact ⟨fun h => ⟨⟨hr, hrs⟩, h⟩, fun h => h.2⟩

theorem headless_eq_none_iff :
    (d.nonterminals.find? fun n => !(d.rules.map d.production).any (·.head = n)) = none ↔
      ∀ n ∈ d.nonterminals, ∃ r ∈ d.rules, r.1 = n := by
  rw [List.find?_eq_none]
  refine forall₂_congr fun n _ => ?_
  rw [List.any_map, Bool.not_eq_true', Bool.not_eq_false, List.any_eq_true]
  refine exists_congr fun r => and_congr_right fun _ => ?_
  exact decide_eq_true_iff

/-- **A declaration gives a grammar exactly if it is well formed**, whichever check comes first. -/
theorem build_eq_ok_iff {g : Grammar} : d.build = .ok g ↔ d.WellFormed ∧ g = d.assemble := by
  constructor
  · intro h
    unfold build at h
    split at h
    · cases h
    · rename_i happart
      split at h
      · cases h
      · rename_i hstart
        split at h
        · cases h
        · rename_i ps hps
          obtain ⟨hrules, rfl⟩ := tagRules_eq_ok_iff.mp hps
          split at h
          · cases h
          · rename_i hheads
            cases h
            refine ⟨⟨fun n hn => ?_, Decidable.not_not.mp hstart, fun r hr => (hrules r hr).1,
              fun r hr => (hrules r hr).2, headless_eq_none_iff.mp hheads⟩, rfl⟩
            simpa using List.find?_eq_none.mp happart n hn
  · rintro ⟨h, rfl⟩
    have happart : d.nonterminals.find? (· ∈ d.terminals) = none :=
      List.find?_eq_none.mpr fun n hn => by simpa using h.apart n hn
    have hrules : d.tagRules d.rules = .ok (d.rules.map d.production) :=
      tagRules_eq_ok_iff.mpr ⟨fun r hr => ⟨h.head_mem r hr, h.knows_body r hr⟩, rfl⟩
    unfold build
    rw [happart]
    dsimp only
    rw [if_neg (not_not_intro h.start_mem), hrules]
    dsimp only
    rw [headless_eq_none_iff.mpr h.has_rule]
    rfl

/-! ## items -/

theorem eraseDups_concat (names : List String) (n : String) :
    (names ++ [n]).eraseDups = if n ∈ names then names.eraseDups else names.eraseDups ++ [n] := by
  rw [List.eraseDups_append]
  split
  · rename_i hn
    have hold : [n].removeAll names = [] := by simp [List.removeAll, hn]
    rw [hold]
    exact List.append_nil _
  · rename_i hn
    have hnew : [n].removeAll names = [n] := by simp [List.removeAll, hn]
    rw [hnew]
    rfl

namespace Item

def nonterminal? : Item → Option String
  | .nonterminal n => some n
  | _ => none

def rule? : Item → Option (String × List String)
  | .rule head body => some (head, body)
  | _ => none

/-- the rules as they come -/
def rules (items : List Item) : List (String × List String) := items.filterMap rule?

/-- the nonterminals in the order of their first declaration -/
def nonterminals (items : List Item) : List String := (items.filterMap nonterminal?).eraseDups

/-- the symbol of a name that is declared as one kind -/
def symbol (items : List Item) (n : String) : Symbol :=
  if .terminal n ∈ items then .terminal n else .nonterminal n

theorem mem_rules {items : List Item} {head : String} {body : List String} :
    (head, body) ∈ rules items ↔ .rule head body ∈ items := by
  rw [rules, List.mem_filterMap]
  constructor
  · rintro ⟨item, hitem, h⟩
    cases item with
    | rule head' body' =>
      cases h
      exact hitem
    | nonterminal n => cases h
    | terminal n => cases h
  · exact fun h => ⟨_, h, rfl⟩

theorem mem_nonterminals {items : List Item} {n : String} :
    n ∈ nonterminals items ↔ .nonterminal n ∈ items := by
  rw [nonterminals, List.mem_eraseDups, List.mem_filterMap]
  constructor
  · rintro ⟨item, hitem, h⟩
    cases item with
    | nonterminal m =>
      cases h
      exact hitem
    | rule head body => cases h
    | terminal m => cases h
  · exact fun h => ⟨_, h, rfl⟩

/-- the conditions on items under which they give a grammar -/
structure WellFormed (start : String) (items : List Item) : Prop where
  /-- no name is of both kinds -/
  apart : ∀ n, .nonterminal n ∈ items → .terminal n ∉ items
  start_mem : .nonterminal start ∈ items
  head_mem : ∀ head body, .rule head body ∈ items → .nonterminal head ∈ items
  knows_body : ∀ head body, .rule head body ∈ items →
    ∀ n ∈ body, .terminal n ∈ items ∨ .nonterminal n ∈ items
  has_rule : ∀ n, .nonterminal n ∈ items → ∃ body, .rule n body ∈ items

/-- the grammar of items -/
structure Describes (start : String) (items : List Item) (g : Grammar) : Prop where
  start_eq : g.start = start
  nonterminals_eq : g.nonterminals = nonterminals items
  mem_terminals : ∀ n, n ∈ g.terminals ↔ .terminal n ∈ items
  ascends_terminals : Ascending.Ascends g.terminals
  productions_eq : g.productions = (rules items).map fun r => ⟨r.1, r.2.map (symbol items)⟩

/-- the same items, with rules and first declarations of nonterminals in the same order -/
structure Reordered (items items' : List Item) : Prop where
  perm : items.Perm items'
  rules_eq : rules items' = rules items
  nonterminals_eq : nonterminals items' = nonterminals items

end Item

/-! ## what a declaration keeps of its items -/

theorem ofItems_concat (start : String) (items : List Item) (item : Item) :
    ofItems start (items ++ [item]) = (ofItems start items).add item :=
  ofItems_append start items [item]

theorem start_ofItems (start : String) (items : List Item) :
    (ofItems start items).start = start := by
  induction items using List.reverseRecOn with
  | nil => rfl
  | append_singleton items item ih =>
    rw [ofItems_concat]
    cases item with
    | nonterminal n =>
      unfold add
      dsimp only
      split <;> exact ih
    | terminal n => exact ih
    | rule head body => exact ih

theorem rules_ofItems (start : String) (items : List Item) :
    (ofItems start items).rules = Item.rules items := by
  induction items using List.reverseRecOn with
  | nil => rfl
  | append_singleton items item ih =>
    rw [ofItems_concat, Item.rules, List.filterMap_append, ← Item.rules, ← ih]
    cases item with
    | nonterminal n =>
      unfold add
      dsimp only
      split <;> exact (List.append_nil _).symm
    | terminal n => exact (List.append_nil _).symm
    | rule head body => rfl

theorem nonterminals_ofItems (start : String) (items : List Item) :
    (ofItems start items).nonterminals = Item.nonterminals items := by
  induction items using List.reverseRecOn with
  | nil => rfl
  | append_singleton items item ih =>
    rw [ofItems_concat, Item.nonterminals, List.filterMap_append]
    cases item with
    | nonterminal n =>
      have hdeclared : n ∈ (ofItems start items).nonterminals ↔
          n ∈ items.filterMap Item.nonterminal? := by
        rw [ih, Item.nonterminals, List.mem_eraseDups]
      show ((ofItems start items).add (.nonterminal n)).nonterminals =
        (items.filterMap Item.nonterminal? ++ [n]).eraseDups
      rw [eraseDups_concat, ← Item.nonterminals, ← ih]
      unfold add
      dsimp only
      split
      · rename_i hn
        rw [if_pos (hdeclared.mp hn)]
      · rename_i hn
        rw [if_neg (fun h => hn (hdeclared.mpr h))]
    | terminal n => exact ih.trans (congrArg List.eraseDups (List.append_nil _).symm)
    | rule head body => exact ih.trans (congrArg List.eraseDups (List.append_nil _).symm)

theorem mem_terminals_ofItems {start n : String} {items : List Item} :
    n ∈ (ofItems start items).terminals ↔ .terminal n ∈ items := by
  induction items using List.reverseRecOn with
  | nil => exact iff_of_false (fun h => nomatch h) fun h => nomatch h
  | append_singleton items item ih =>
    rw [ofItems_concat, List.mem_append, ← ih, List.mem_singleton]
    cases item with
    | nonterminal m =>
      unfold add
      dsimp only
      split <;> simp
    | terminal m =>
      show n ∈ Ascending.insert m _ ↔ _
      rw [Ascending.mem_insert, Item.terminal.injEq]
      exact or_comm
    | rule head body => simp [add]

theorem ascends_terminals_ofItems (start : String) (items : List Item) :
    Ascending.Ascends (ofItems start items).terminals := by
  induction items using List.reverseRecOn with
  | nil => exact Ascending.ascends_nil
  | append_singleton items item ih =>
    rw [ofItems_concat]
    cases item with
    | nonterminal n =>
      unfold add
      dsimp only
      split <;> exact ih
    | terminal n => exact Ascending.ascends_insert ih
    | rule head body => exact ih

theorem wellFormed_ofItems_iff {start : String} {items : List Item} :
    (ofItems start items).WellFormed ↔ Item.WellFormed start items := by
  have hn : ∀ n, n ∈ (ofItems start items).nonterminals ↔ .nonterminal n ∈ items := fun n => by
    rw [nonterminals_ofItems, Item.mem_nonterminals]
  have hr : ∀ head body, (head, body) ∈ (ofItems start items).rules ↔ .rule head body ∈ items :=
    fun head body => by rw [rules_ofItems, Item.mem_rules]
  constructor
  · intro h
    refine ⟨fun n hmem ht => ?_, ?_, fun head body hrule => ?_, fun head body hrule n hbody => ?_,
      fun n hmem => ?_⟩
    · exact h.apart n ((hn n).mpr hmem) (mem_terminals_ofItems.mpr ht)
    · have hstart := (hn _).mp h.start_mem
      rwa [start_ofItems] at hstart
    · exact (hn head).mp (h.head_mem _ ((hr head body).mpr hrule))
    · exact (h.knows_body _ ((hr head body).mpr hrule) n hbody).imp mem_terminals_ofItems.mp
        (hn n).mp
    · obtain ⟨⟨_, body⟩, hrule, rfl⟩ := h.has_rule n ((hn n).mpr hmem)
      exact ⟨body, (hr _ body).mp hrule⟩
  · intro h
    refine ⟨fun n hmem ht => ?_, ?_, fun r hrule => ?_, fun r hrule n hbody => ?_, fun n hmem => ?_⟩
    · exact h.apart n ((hn n).mp hmem) (mem_terminals_ofItems.mp ht)
    · rw [start_ofItems]
      exact (hn start).mpr h.start_mem
    · exact (hn r.1).mpr (h.head_mem r.1 r.2 ((hr r.1 r.2).mp hrule))
    · exact (h.knows_body r.1 r.2 ((hr r.1 r.2).mp hrule) n hbody).imp mem_terminals_ofItems.mpr
        (hn n).mpr
    · obtain ⟨body, hrule⟩ := h.has_rule n ((hn n).mp hmem)
      exact ⟨(n, body), (hr n body).mpr hrule, rfl⟩

theorem describes_assemble (start : String) (items : List Item) :
    Item.Describes start items (ofItems start items).assemble where
  start_eq := start_ofItems start items
  nonterminals_eq := nonterminals_ofItems start items
  mem_terminals _ := mem_terminals_ofItems
  ascends_terminals := ascends_terminals_ofItems start items
  productions_eq := by
    have hsymbol : (ofItems start items).symbol = Item.symbol items := by
      funext n
      unfold symbol Item.symbol
      simp only [mem_terminals_ofItems]
    rw [assemble, rules_ofItems]
    unfold production
    rw [hsymbol]

theorem ofItems_eq_of_reordered {items items' : List Item} (h : Item.Reordered items items')
    (start : String) : ofItems start items' = ofItems start items := by
  have hterminals : (ofItems start items').terminals = (ofItems start items).terminals := by
    refine List.Pairwise.eq_of_mem_iff (ascends_terminals_ofItems start items')
      (ascends_terminals_ofItems start items) fun n => ?_
    rw [mem_terminals_ofItems, mem_terminals_ofItems, h.perm.mem_iff]
  have hnonterminals :
      (ofItems start items').nonterminals = (ofItems start items).nonterminals := by
    rw [nonterminals_ofItems, nonterminals_ofItems, h.nonterminals_eq]
  have hrules : (ofItems start items').rules = (ofItems start items).rules := by
    rw [rules_ofItems, rules_ofItems, h.rules_eq]
  have hstart : (ofItems start items').start = (ofItems start items).start := by
    rw [start_ofItems, start_ofItems]
  calc ofItems start items'
      = ⟨(ofItems start items').start, (ofItems start items').nonterminals,
          (ofItems start items').terminals, (ofItems start items').rules⟩ := rfl
    _ = ofItems start items := by rw [hstart, hnonterminals, hterminals, hrules]

/-- **Items give a grammar exactly if they are well formed**, the one they describe, and neither
that nor the defect hangs on how terminals, repeated declarations and rules are interleaved. -/
theorem grammar_of_items (start : String) (items : List Item) :
    ((∃ g, (ofItems start items).build = .ok g) ↔ Item.WellFormed start items) ∧
      (∀ g, (ofItems start items).build = .ok g → Item.Describes start items g) ∧
      ∀ items', Item.Reordered items items' →
        (ofItems start items').build = (ofItems start items).build := by
  refine ⟨?_, fun g hg => ?_, fun items' h => ?_⟩
  · rw [← wellFormed_ofItems_iff]
    exact ⟨fun ⟨_, hg⟩ => (build_eq_ok_iff.mp hg).1, fun h => ⟨_, build_eq_ok_iff.mpr ⟨h, rfl⟩⟩⟩
  · obtain ⟨_, rfl⟩ := build_eq_ok_iff.mp hg
    exact describes_assemble start items
  · rw [ofItems_eq_of_reordered h]

/-- a rule before the declarations it needs, and a nonterminal declared twice -/
def scatteredItems : List Item :=
  [.rule "S" ["a", "A"], .terminal "b", .nonterminal "S", .nonterminal "A", .terminal "a",
    .nonterminal "S", .rule "A" []]

def gatheredItems : List Item :=
  [.terminal "a", .terminal "b", .nonterminal "S", .nonterminal "S", .nonterminal "A",
    .rule "S" ["a", "A"], .rule "A" []]

theorem grammar_of_scattered_items :
    Item.Reordered scatteredItems gatheredItems ∧
      (ofItems "S" gatheredItems).build = .ok
        ⟨"S", ["S", "A"], ["a", "b"], [⟨"S", [.terminal "a", .nonterminal "A"]⟩, ⟨"A", []⟩]⟩ ∧
      (ofItems "S" scatteredItems).build = (ofItems "S" gatheredItems).build ∧
      Item.Describes "S" scatteredItems
        ⟨"S", ["S", "A"], ["a", "b"], [⟨"S", [.terminal "a", .nonterminal "A"]⟩, ⟨"A", []⟩]⟩ := by
  have horder : Item.Reordered scatteredItems gatheredItems := ⟨by decide, by decide, by decide⟩
  have hbuild : (ofItems "S" gatheredItems).build = .ok
      ⟨"S", ["S", "A"], ["a", "b"], [⟨"S", [.terminal "a", .nonterminal "A"]⟩, ⟨"A", []⟩]⟩ := by
    decide
  obtain ⟨_, hdescribes, hsame⟩ := grammar_of_items "S" scatteredItems
  have hsame := (hsame gatheredItems horder).symm
  exact ⟨horder, hbuild, hsame, hdescribes _ (hsame.trans hbuild)⟩

end Declaration

end SpanishSyntax
