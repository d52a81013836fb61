import SpanishSyntax.Grammar.Declaration

/-!
# What a built grammar promises

`Declaration.build` is the only way to a grammar, so everything past it may rely on
`Grammar.Valid` (`Declaration.valid_of_build`).
-/

namespace SpanishSyntax

namespace Grammar

def Declares (g : Grammar) : Symbol → Prop
  | .terminal a => a ∈ g.terminals
  | .nonterminal n => n ∈ g.nonterminals

structure Valid (g : Grammar) : Prop where
  start_mem : g.start ∈ g.nonterminals
  head_mem : ∀ p ∈ g.productions, p.head ∈ g.nonterminals
  declares_body : ∀ p ∈ g.productions, ∀ s ∈ p.body, g.Declares s

end Grammar

namespace Declaration

variable {d : Declaration}

def Declares (d : Declaration) : Symbol → Prop
  | .terminal a => a ∈ d.terminals
  | .nonterminal n => n ∈ d.nonterminals

theorem declares_of_tag? {n : String} {s : Symbol} (h : d.tag? n = some s) : d.Declares s := by
  unfold tag? at h
  split at h
  · cases h
    assumption
  · split at h
    · cases h
      assumption
    · cases h

theorem declares_of_tagBody {head : String} {names : List String} {body : List Symbol}
    (h : d.tagBody head names = .ok body) : ∀ s ∈ body, d.Declares s := by
  induction names generalizing body with
  | nil =>
    cases h
    exact fun _ hs => nomatch hs
  | cons n names ih =>
    unfold tagBody at h
    cases ht : d.tag? n with
    | none => simp [ht] at h
    | some s =>
      cases hb : d.tagBody head names with
      | error e => simp [ht, hb, Except.map] at h
      | ok rest =>
        simp only [ht, hb, Except.map, Except.ok.injEq] at h
        subst h
        exact List.forall_mem_cons.mpr ⟨declares_of_tag? ht, ih hb⟩

/-- the productions that `build` makes, each under a declared head -/
def WellTagged (d : Declaration) (p : Production) : Prop :=
  p.head ∈ d.nonterminals ∧ ∀ s ∈ p.body, d.Declares s

theorem wellTagged_of_tagRule {rule : String × List String} {p : Production}
    (h : d.tagRule rule = .ok p) : d.WellTagged p := by
  unfold tagRule at h
  split at h
  · rename_i hhead
    cases hb : d.tagBody rule.1 rule.2 with
    | error e => simp [hb, Except.map] at h
    | ok body =>
      simp only [hb, Except.map, Except.ok.injEq] at h
      subst h
      exact ⟨hhead, declares_of_tagBody hb⟩
  · cases h

theorem wellTagged_of_tagRules {rules : List (String × List String)} {ps : List Production}
    (h : d.tagRules rules = .ok ps) : ∀ p ∈ ps, d.WellTagged p := by
  induction rules generalizing ps with
  | nil =>
    cases h
    exact fun _ hp => nomatch hp
  | cons r rules ih =>
    unfold tagRules at h
    cases hr : d.tagRule r with
    | error e => simp [hr] at h
    | ok p =>
      cases hrs : d.tagRules rules with
      | error e => simp [hr, hrs, Except.map] at h
      | ok rest =>
        simp only [hr, hrs, Except.map, Except.ok.injEq] at h
        subst h
        exact List.forall_mem_cons.mpr ⟨wellTagged_of_tagRule hr, ih hrs⟩

theorem build_inv {g : Grammar} (h : d.build = .ok g) :
    d.start ∈ d.nonterminals ∧ ∃ ps, d.tagRules d.rules = .ok ps ∧
      g = ⟨d.start, d.nonterminals, d.terminals, ps⟩ := by
  unfold build at h
  split at h
  · cases h
  · split at h
    · cases h
    · rename_i hstart
      split at h
      · cases h
      · rename_i ps hps
        split at h
        · cases h
        · cases h
          exact ⟨Decidable.not_not.mp hstart, ps, hps, rfl⟩

theorem nonterminals_of_build {g : Grammar} (h : d.build = .ok g) :
    g.nonterminals = d.nonterminals := by
  obtain ⟨_, _, _, rfl⟩ := build_inv h
  rfl

theorem valid_of_build {g : Grammar} (h : d.build = .ok g) : g.Valid := by
  obtain ⟨hstart, ps, hps, rfl⟩ := build_inv h
  have hps := wellTagged_of_tagRules hps
  refine ⟨hstart, fun p hp => (hps p hp).1, fun p hp s hs => ?_⟩
  have hd := (hps p hp).2 s hs
  cases s with
  | terminal a => exact hd
  | nonterminal n => exact hd

/-- a name that is declared again is not listed again -/
theorem nodup_nonterminals_ofItems (start : String) (items : List Item) :
    (ofItems start items).nonterminals.Nodup := by
  have hempty : (empty start).nonterminals.Nodup := List.nodup_nil
  refine List.foldlRecOn (motive := fun d => d.nonterminals.Nodup) items add hempty
    fun d hd item _ => ?_
  cases item with
  | nonterminal n =>
    unfold add
    dsimp only
    split
    · exact hd
    · rename_i hn
      refine List.nodup_append.mpr ⟨hd, List.pairwise_singleton _ n, fun m hm k hk => ?_⟩
      rw [List.mem_singleton.mp hk]
      exact fun e => hn (e ▸ hm)
  | terminal n => exact hd
  | rule head body => exact hd

end Declaration

end SpanishSyntax
