import SpanishSyntax.Semantic.Concept
import SpanishSyntax.Total

/-!
# What the scores add up to

A word goes through the base and adds half points at the place of each concept that it matches; a
stem adds them at one place several times over.  Either way every concept gets what it gains and
no other score is touched (`Scores.credit`), so after all words and stems a concept has the sum of
its gains, and no score if that is zero (`Scores.ofTexts_eq`).
-/

namespace SpanishSyntax.Semantic

def wordPoints (t : Terms) (word : String) : Nat :=
  if t.name = word then 6 else if word ∈ t.synonyms then 4 else 0

def stemPoints (t : Terms) (stem : String) : Nat :=
  if stem = "" then 0
  else (if overlap t.name stem then 2 else 0) + t.synonyms.countP (overlap · stem)

/-- the half points for words and stems in lower case -/
def halfPoints (t : Terms) (words stems : List String) : Nat :=
  total (wordPoints t) words + total (stemPoints t) stems

namespace Scores

/-- half points on top of a score; none at all leave it as it is -/
def raise (points : Nat) (s : Option Nat) : Option Nat :=
  if points = 0 then s else some (s.getD 0 + points)

theorem raise_zero (s : Option Nat) : raise 0 s = s := rfl

theorem raise_of_pos {points : Nat} (h : 0 < points) (s : Option Nat) :
    raise points s = some (s.getD 0 + points) := if_neg (Nat.ne_of_gt h)

theorem raise_raise (a b : Nat) (s : Option Nat) : raise b (raise a s) = raise (a + b) s := by
  by_cases ha : a = 0
  · rw [ha, raise_zero, Nat.zero_add]
  · by_cases hb : b = 0
    · rw [hb, raise_zero, Nat.add_zero]
    · rw [raise_of_pos (Nat.pos_of_ne_zero ha), raise_of_pos (Nat.pos_of_ne_zero hb),
        raise_of_pos (by omega), Option.getD_some, Nat.add_assoc]

/-- every concept gets what it gains -/
def credit (gain : Terms → Nat) (base : List Terms) (scores : Scores) : Scores :=
  List.zipWith (fun t s => raise (gain t) s) base scores

section

variable {base : List Terms} {scores : Scores}

theorem length_credit (gain : Terms → Nat) (h : scores.length = base.length) :
    (credit gain base scores).length = base.length := by
  rw [credit, List.length_zipWith, h, Nat.min_self]

theorem credit_zero (h : scores.length = base.length) :
    credit (fun _ => 0) base scores = scores := by
  induction base generalizing scores with
  | nil => exact (List.eq_nil_of_length_eq_zero h).symm
  | cons t base ih =>
    cases scores with
    | nil => cases h
    | cons s scores => exact congrArg (List.cons s) (ih (Nat.succ.inj h))

theorem credit_credit (f g : Terms → Nat) :
    credit g base (credit f base scores) = credit (fun t => f t + g t) base scores := by
  induction base generalizing scores with
  | nil => rfl
  | cons t base ih =>
    cases scores with
    | nil => rfl
    | cons s scores =>
      show raise (g t) (raise (f t) s) :: credit g base (credit f base scores) = _
      rw [raise_raise, ih]
      rfl

theorem credit_none (gain : Terms → Nat) :
    credit gain base (List.replicate base.length none) = base.map fun t => raise (gain t) none := by
  induction base with
  | nil => rfl
  | cons t base ih => exact congrArg (List.cons (raise (gain t) none)) ih

/-! ## one pass over the base -/

theorem modify_middle (before : Scores) (s : Option Nat) (behind : Scores)
    (f : Option Nat → Option Nat) :
    (before ++ s :: behind).modify before.length f = before ++ f s :: behind := by
  induction before with
  | nil => rfl
  | cons b before ih => exact congrArg (List.cons b) ih

/-- the places of the base are visited one after the other, and each score is raised at its own -/
theorem foldl_zipIdx {gain : Terms → Nat} {step : Scores → Terms × Nat → Scores}
    (hstep : ∀ scores entry, step scores entry = scores.modify entry.2 (raise (gain entry.1)))
    (before : Scores) (h : scores.length = base.length) :
    (base.zipIdx before.length).foldl step (before ++ scores) =
      before ++ credit gain base scores := by
  induction base generalizing before scores with
  | nil =>
    obtain rfl := List.eq_nil_of_length_eq_zero h
    rfl
  | cons t base ih =>
    cases scores with
    | nil => cases h
    | cons s scores =>
      have hrest := ih (before ++ [raise (gain t) s]) (Nat.succ.inj h)
      rw [List.length_append, List.length_singleton, List.append_assoc, List.singleton_append,
        List.append_assoc, List.singleton_append] at hrest
      rw [List.zipIdx_cons, List.foldl_cons, hstep, modify_middle, hrest]
      rfl

theorem add_eq (scores : Scores) {points : Nat} (h : 0 < points) (index : Nat) :
    add points scores index = scores.modify index (raise points) :=
  congrArg (scores.modify index) (funext fun s => (raise_of_pos h s).symm)

theorem addWord_eq (word : String) (scores : Scores) (entry : Terms × Nat) :
    addWord word scores entry = scores.modify entry.2 (raise (wordPoints entry.1 word)) := by
  unfold addWord wordPoints
  by_cases hname : entry.1.name = word
  · rw [if_pos hname, if_pos hname, add_eq scores (by omega)]
  · rw [if_neg hname, if_neg hname]
    by_cases hsynonym : word ∈ entry.1.synonyms
    · rw [if_pos hsynonym, if_pos hsynonym, add_eq scores (by omega)]
    · rw [if_neg hsynonym, if_neg hsynonym]
      exact (List.modify_id _ _).symm

theorem foldl_addSynonym (stem : String) (index points : Nat) (synonyms : List String) :
    synonyms.foldl (addSynonym stem index) (scores.modify index (raise points)) =
      scores.modify index (raise (points + synonyms.countP (overlap · stem))) := by
  induction synonyms generalizing points with
  | nil => rfl
  | cons s synonyms ih =>
    rw [List.foldl_cons, List.countP_cons, addSynonym]
    by_cases hs : overlap s stem = true
    · have hraise : raise 1 ∘ raise points = raise (points + 1) :=
        funext fun o => raise_raise points 1 o
      rw [if_pos hs, if_pos hs, add_eq _ Nat.one_pos, List.modify_modify_eq, hraise, ih]
      congr 2
      omega
    · rw [if_neg hs, if_neg hs, ih]
      rfl

theorem addStem_eq {stem : String} (h : stem ≠ "") (scores : Scores) (entry : Terms × Nat) :
    addStem stem scores entry = scores.modify entry.2 (raise (stemPoints entry.1 stem)) := by
  have hname : (if overlap entry.1.name stem then add 2 scores entry.2 else scores) =
      scores.modify entry.2 (raise (if overlap entry.1.name stem then 2 else 0)) := by
    by_cases ho : overlap entry.1.name stem = true
    · rw [if_pos ho, if_pos ho, add_eq scores (by omega)]
    · rw [if_neg ho, if_neg ho]
      exact (List.modify_id _ _).symm
  rw [addStem, hname, foldl_addSynonym, stemPoints, if_neg h]

theorem ofWord_eq (word : String) (h : scores.length = base.length) :
    ofWord base scores word = credit (wordPoints · word) base scores :=
  foldl_zipIdx (addWord_eq word) [] h

theorem ofStem_eq (stem : String) (h : scores.length = base.length) :
    ofStem base scores stem = credit (stemPoints · stem) base scores := by
  unfold ofStem
  by_cases hstem : stem = ""
  · have hnone : (fun t => stemPoints t stem) = fun _ => 0 := funext fun t => if_pos hstem
    rw [if_pos hstem, hnone, credit_zero h]
  · rw [if_neg hstem]
    exact foldl_zipIdx (addStem_eq hstem) [] h

/-! ## all words and stems -/

theorem foldl_credit {gain : Terms → String → Nat} {step : Scores → String → Scores}
    (hstep : ∀ (scores : Scores) (text : String), scores.length = base.length →
      step scores text = credit (gain · text) base scores)
    (texts : List String) (h : scores.length = base.length) :
    texts.foldl step scores = credit (fun t => total (gain t) texts) base scores := by
  induction texts generalizing scores with
  | nil => exact (credit_zero h).symm
  | cons x texts ih =>
    rw [List.foldl_cons, hstep scores x h, ih (length_credit _ h), credit_credit]
    rfl

theorem ofTexts_eq (base : List Terms) (words stems : List String) :
    ofTexts base words stems = base.map fun t => raise (halfPoints t words stems) none := by
  have hblank : (List.replicate base.length (none : Option Nat)).length = base.length :=
    List.length_replicate
  have hwords := foldl_credit (fun _ word => ofWord_eq word) words hblank
  have hstep : ∀ (scores : Scores) (stem : String), scores.length = base.length →
      ofStem base scores stem = credit (stemPoints · stem) base scores := fun _ => ofStem_eq
  have hstems := foldl_credit hstep stems
    (length_credit (fun t => total (wordPoints t) words) hblank)
  rw [ofTexts, hwords, hstems, credit_credit]
  exact credit_none _

end

end Scores

/-- the concepts that score, in the order of the base -/
theorem KnowledgeBase.scored_eq (kb : KnowledgeBase) (points : Concept → Nat) :
    kb.scored (kb.map fun c => Scores.raise (points c) none) =
      (kb.filter (0 < points ·)).map fun c => ⟨c.name, points c⟩ := by
  induction kb with
  | nil => rfl
  | cons c kb ih =>
    by_cases hc : 0 < points c
    · have hscore : Scores.raise (points c) none = some (points c) := by
        rw [Scores.raise_of_pos hc, Option.getD_none, Nat.zero_add]
      rw [List.map_cons, hscore, List.filter_cons_of_pos (by simpa using hc)]
      exact congrArg (List.cons _) ih
    · have hscore : Scores.raise (points c) none = none := if_pos (by omega)
      rw [List.map_cons, hscore, List.filter_cons_of_neg (by simpa using hc)]
      exact ih

end SpanishSyntax.Semantic
