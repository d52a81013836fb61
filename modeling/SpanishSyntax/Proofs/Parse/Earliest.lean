import SpanishSyntax.Proofs.Parse.Language
import SpanishSyntax.Proofs.Parse.Path

/-!
# Errors are reported at the earliest token

A rejection names the position at which the parser stopped.  What was read up to there begins a
derived form (`ParseTable.Course.derives_read`).  A parser that has only seen one token more
cannot tell other ends of the input apart (`ParseTable.Course.error_of_lookahead`), so it would
reject any sentence that begins with these tokens; without conflicts it rejects no sentence.
-/

namespace SpanishSyntax.ParseTable

open Parse Machine

variable {g : Grammar} {t : ParseTable} {w : List String} {steps : List TraceStep} {m : Machine}

theorem Course.derives_read (hb : t.Built g) (h : t.Course g w steps m) :
    g.Derives [.nonterminal g.start] ((tokensRead steps).map .terminal ++ m.form) := by
  obtain ⟨_, _, hleft⟩ := h.path.leftmost hb
  exact hleft.derives

/-- other tokens behind the lookahead change nothing -/
theorem Course.error_of_lookahead (hb : t.Built g) (h : t.Course g w steps m)
    {rest : List String} (hla : Lookahead.ofRest rest = Lookahead.ofRest m.rest) :
    (t.parse (tokensRead steps ++ rest)).error = (t.parse w).error := by
  obtain ⟨steps', hpath⟩ := h.path.of_lookahead hla
  have hrun := congrArg Outcome.error (run_of_path hpath (h.halt.of_lookahead hla))
  rw [← hb.grammar] at hrun
  exact hrun

theorem accepted_of_derives (hb : t.Built g) (hll : t.isLL1 = true)
    (h : g.Derives [.nonterminal g.start] (w.map .terminal)) : (t.parse w).accepted = true := by
  obtain ⟨ps, hps⟩ := Grammar.exists_reads_of_derives h
  exact (parse_of_leftmostDerivation hb hll (Grammar.leftmost_iff_reads.mpr hps)).1

theorem not_derives_of_error (hb : t.Built g) (hll : t.isLL1 = true) {e : Rejection}
    (he : (t.parse w).error = some e) : ¬ g.Derives [.nonterminal g.start] (w.map .terminal) := by
  intro h
  have haccept := accepted_of_derives hb hll h
  rw [Outcome.accepted, he] at haccept
  cases haccept

/-- no sentence begins with what was read and the token at which the parser stopped -/
theorem Course.not_derives_extension (hb : t.Built g) (hll : t.isLL1 = true)
    (h : t.Course g w steps m) {e : Rejection} (he : (t.parse w).error = some e) {a : String}
    {rest : List String} (hrest : m.rest = a :: rest) (v : List String) :
    ¬ g.Derives [.nonterminal g.start] ((tokensRead steps ++ a :: v).map .terminal) := by
  have hla : Lookahead.ofRest (a :: v) = Lookahead.ofRest m.rest := by rw [hrest]; rfl
  exact not_derives_of_error hb hll ((h.error_of_lookahead hb hla).trans he)

/-- **Errors are reported at the earliest token.**  The tokens up to the position of the error
begin a form derived from the start symbol; without conflicts no sentence begins with these and
the next token, or, if there is none, they are no sentence themselves. -/
theorem earliest_error_of_build {d : Declaration} {policy : ConflictPolicy}
    (hg : d.build = .ok g) (ht : build g policy = .ok t)
    (hrejected : (t.parse w).accepted = false) :
    ∃ e p, (t.parse w).error = some e ∧ e.position = p ∧ (t.parse w).consumed = p ∧
      p ≤ w.length ∧
      (∃ v, g.Derives [.nonterminal g.start] ((w.take p).map .terminal ++ v)) ∧
      (t.isLL1 = true →
        (p < w.length → ∀ v,
          ¬ g.Derives [.nonterminal g.start] ((w.take (p + 1) ++ v).map .terminal)) ∧
        (p = w.length → ¬ g.Derives [.nonterminal g.start] (w.map .terminal))) := by
  have hb := built_of_build hg ht
  obtain ⟨steps, m, hcourse⟩ := exists_course hb w
  obtain ⟨e, he⟩ := Option.isSome_iff_exists.mp (Option.isNone_eq_false_iff.mp hrejected)
  have hhalt := hcourse.halt
  rw [he] at hhalt
  have hread : (t.parse w).consumed = (tokensRead steps).length :=
    hcourse.consumed.trans hcourse.position_eq
  have htokens := hcourse.tokens_eq
  have hlength : w.length = (tokensRead steps).length + m.rest.length := by
    rw [← List.length_append, ← htokens]
  refine ⟨e, (t.parse w).consumed, he, hhalt.position_eq.trans hcourse.consumed.symm, rfl,
    by omega, ⟨m.form, ?_⟩, fun hll => ⟨fun hlt v => ?_, fun _ => not_derives_of_error hb hll he⟩⟩
  · rw [hcourse.take_consumed]
    exact hcourse.derives_read hb
  · obtain ⟨a, rest, hrest⟩ := List.exists_cons_of_length_pos
      (show 0 < m.rest.length by omega)
    have hnext : w.take ((t.parse w).consumed + 1) = tokensRead steps ++ [a] := by
      rw [hread, htokens, hrest, List.take_length_add_append]
      rfl
    rw [hnext, List.append_assoc]
    exact hcourse.not_derives_extension hb hll he hrest v

theorem parse_nounPhrase_rejects :
    nounPhrase.build = .ok nounPhraseGrammar ∧
      build nounPhraseGrammar .reject = .ok nounPhraseTable ∧
      (nounPhraseTable.parse ["sust", "art", "adj"]).accepted = false ∧
      (∃ v, nounPhraseGrammar.Derives [.nonterminal "SN"] (.terminal "sust" :: v)) ∧
      ∀ v, ¬ nounPhraseGrammar.Derives [.nonterminal "SN"]
        (("sust" :: "art" :: v).map .terminal) := by
  have hparse := parse_of_runWithin (t := nounPhraseTable) (n := 9) (w := ["sust", "art", "adj"])
    (o := ⟨[⟨["Adjs", "sust", "Det"], ["sust", "art", "adj"],
        .expand "SN" [.nonterminal "Det", .terminal "sust", .nonterminal "Adjs"]⟩,
      ⟨["Adjs", "sust"], ["sust", "art", "adj"], .expand "Det" []⟩,
      ⟨["Adjs"], ["art", "adj"], .matched "sust"⟩,
      ⟨["Adjs"], ["art", "adj"], .reject (.noProduction "Adjs" "art" 1)⟩],
      some (.noProduction "Adjs" "art" 1), 1⟩) (by decide)
  have hrejected : (nounPhraseTable.parse ["sust", "art", "adj"]).accepted = false := by
    rw [hparse]
    rfl
  have hconsumed : (nounPhraseTable.parse ["sust", "art", "adj"]).consumed = 1 := by
    rw [hparse]
    rfl
  obtain ⟨e, p, _, _, hp, _, hread, hll⟩ := earliest_error_of_build (d := nounPhrase)
    (g := nounPhraseGrammar) rfl build_nounPhraseGrammar hrejected
  obtain rfl : p = 1 := hp.symm.trans hconsumed
  exact ⟨rfl, build_nounPhraseGrammar, hrejected, hread, (hll (by decide)).1 (by decide)⟩

end SpanishSyntax.ParseTable
