import Mathlib.Logic.Relation
import SpanishSyntax.Grammar.Basic

/-!
# Derivations

* `Grammar.Produces`   one nonterminal of a sentential form is replaced by a body of it;
* `Grammar.Derives`    any number of such steps;
* `Grammar.Leftmost`   steps that replace the leftmost nonterminal, with the list of the
                       productions used.  Every step is subject to a condition on the terminals
                       left of it and the production, so that the same relation says "any
                       leftmost derivation" and "the derivation that a table dictates".
-/

namespace SpanishSyntax.Grammar

variable {g : Grammar}

inductive Produces (g : Grammar) : List Symbol → List Symbol → Prop where
  | replace {p : Production} (hp : p ∈ g.productions) (left right : List Symbol) :
      Produces g (left ++ .nonterminal p.head :: right) (left ++ (p.body ++ right))

abbrev Derives (g : Grammar) : List Symbol → List Symbol → Prop :=
  Relation.ReflTransGen g.Produces

theorem Produces.append_left {u v : List Symbol} (h : g.Produces u v) (w : List Symbol) :
    g.Produces (w ++ u) (w ++ v) := by
  obtain ⟨hp, left, right⟩ := h
  rw [← List.append_assoc, ← List.append_assoc w]
  exact .replace hp (w ++ left) right

theorem Produces.append_right {u v : List Symbol} (h : g.Produces u v) (w : List Symbol) :
    g.Produces (u ++ w) (v ++ w) := by
  obtain ⟨hp, left, right⟩ := h
  rw [List.append_assoc, List.append_assoc, List.append_assoc]
  exact .replace hp left (right ++ w)

theorem Derives.append_left {u v : List Symbol} (h : g.Derives u v) (w : List Symbol) :
    g.Derives (w ++ u) (w ++ v) := by
  induction h with
  | refl => exact .refl
  | tail _ hlast ih => exact ih.tail (hlast.append_left w)

theorem Derives.append_right {u v : List Symbol} (h : g.Derives u v) (w : List Symbol) :
    g.Derives (u ++ w) (v ++ w) := by
  induction h with
  | refl => exact .refl
  | tail _ hlast ih => exact ih.tail (hlast.append_right w)

theorem Derives.append {u v u' v' : List Symbol} (h : g.Derives u v) (h' : g.Derives u' v') :
    g.Derives (u ++ u') (v ++ v') :=
  (h.append_right u').trans (h'.append_left v)

theorem produces_body {p : Production} (hp : p ∈ g.productions) :
    g.Produces [.nonterminal p.head] p.body := by
  have h := Produces.replace hp [] []
  rwa [List.append_nil] at h

theorem derives_body {p : Production} (hp : p ∈ g.productions) :
    g.Derives [.nonterminal p.head] p.body :=
  .single (produces_body hp)

/-- a nonterminal on its own can only be replaced by a body of it -/
theorem produces_nonterminal_iff {n : String} {u : List Symbol} :
    g.Produces [.nonterminal n] u ↔ ∃ p ∈ g.productions, p.head = n ∧ p.body = u := by
  constructor
  · intro h
    generalize hn : [Symbol.nonterminal n] = form at h
    obtain @⟨p, hp, left, right⟩ := h
    rcases List.append_eq_singleton_iff.mp hn.symm with ⟨rfl, hright⟩ | ⟨_, hright⟩
    · obtain ⟨hhead, rfl⟩ := List.cons.inj hright
      exact ⟨p, hp, Symbol.nonterminal.inj hhead, (List.append_nil _).symm⟩
    · cases hright
  · rintro ⟨p, hp, rfl, rfl⟩
    exact produces_body hp

/-! ## leftmost derivations -/

inductive Leftmost (g : Grammar) (allowed : List String → Production → Prop) :
    List Symbol → List Production → List Symbol → Prop where
  | refl (u : List Symbol) : Leftmost g allowed u [] u
  | step {p : Production} {read : List String} {right v : List Symbol} {ps : List Production}
      (hp : p ∈ g.productions) (ok : allowed read p)
      (h : Leftmost g allowed (read.map .terminal ++ (p.body ++ right)) ps v) :
      Leftmost g allowed (read.map .terminal ++ .nonterminal p.head :: right) (p :: ps) v

/-- a leftmost derivation without further conditions -/
abbrev LeftmostDerivation (g : Grammar) : List Symbol → List Production → List Symbol → Prop :=
  g.Leftmost fun _ _ => True

variable {allowed : List String → Production → Prop}

theorem Leftmost.derives {u v : List Symbol} {ps : List Production}
    (h : g.Leftmost allowed u ps v) : g.Derives u v := by
  induction h with
  | refl u => exact .refl
  | step hp _ _ ih => exact .head (.replace hp _ _) ih

theorem LeftmostDerivation.cons_terminal {u v : List Symbol} {ps : List Production}
    (h : g.LeftmostDerivation u ps v) (a : String) :
    g.LeftmostDerivation (.terminal a :: u) ps (.terminal a :: v) := by
  induction h with
  | refl u => exact .refl _
  | @step p read right v ps hp ok _ ih =>
    have hstep : g.LeftmostDerivation ((a :: read).map .terminal ++ .nonterminal p.head :: right)
        (p :: ps) (.terminal a :: v) := .step hp ok ih
    exact hstep

theorem LeftmostDerivation.expand {p : Production} (hp : p ∈ g.productions)
    {u v : List Symbol} {ps : List Production} (h : g.LeftmostDerivation (p.body ++ u) ps v) :
    g.LeftmostDerivation (.nonterminal p.head :: u) (p :: ps) v := by
  have hstep : g.LeftmostDerivation (([] : List String).map .terminal ++ .nonterminal p.head :: u)
      (p :: ps) v := .step hp trivial h
  exact hstep

end SpanishSyntax.Grammar
