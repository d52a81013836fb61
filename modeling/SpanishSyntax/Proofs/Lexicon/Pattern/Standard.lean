import Mathlib.Data.List.Forall2
import SpanishSyntax.Proofs.Lexicon.Pattern.Reading
import SpanishSyntax.Proofs.Lexicon.Regexes

/-!
# The reader has standard semantics

An expression means what the pattern matches that is read from it (`Means`).  With anchors around a
group the reader comes to a sequence of the same length (`read?_join`), and a sequence matches in
turn what its parts do (`inTurn_iff`).  So the reader is a library as a classifier relies on it
(`standard_regexes`).
-/

namespace SpanishSyntax.Lexicon.Pattern

open Regexes

/-- the part `found` of a text, between `before` and `after`, is a match -/
def Finds (p : Pattern) (before found after : List Char) : Prop :=
  p.Matches ⟨before.reverse, found ++ after⟩ ⟨(before ++ found).reverse, after⟩

def Means (e : String) : Meaning := fun before found after =>
  ∃ p, read? e.toList = some p ∧ p.Finds before found after

section

variable {p q : Pattern} {e : String} {before found after : List Char}

theorem means_iff (h : read? e.toList = some p) :
    Means e before found after ↔ p.Finds before found after := by
  constructor
  · rintro ⟨q, hq, hfinds⟩
    obtain rfl := Option.some.inj (h.symm.trans hq)
    exact hfinds
  · exact fun hfinds => ⟨p, h, hfinds⟩

/-- a reading that ends where it began has found nothing -/
theorem end_eq_start_iff : (⟨(before ++ found).reverse, after⟩ : Cursor) =
    ⟨before.reverse, found ++ after⟩ ↔ found = [] := by
  constructor
  · intro h
    exact List.self_eq_append_left.mp (Cursor.mk.inj h).2
  · rintro rfl
    rw [List.append_nil, List.nil_append]

theorem finds_empty_iff : empty.Finds before found after ↔ found = [] :=
  end_eq_start_iff

theorem finds_textStart_iff :
    (anchor .textStart).Finds before found after ↔ before = [] ∧ found = [] := by
  refine and_congr ?_ end_eq_start_iff
  simp [Anchor.holds]

theorem finds_textEnd_iff :
    (anchor .textEnd).Finds before found after ↔ after = [] ∧ found = [] := by
  have hends : Anchor.textEnd.holds ⟨before.reverse, found ++ after⟩ = true ↔
      found = [] ∧ after = [] := by
    simp [Anchor.holds]
  refine (and_congr hends end_eq_start_iff).trans ?_
  exact ⟨fun h => ⟨h.1.2, h.2⟩, fun h => ⟨⟨h.2, h.1⟩, h.2⟩⟩

/-- the first part ends at a cursor ahead, which divides what was found -/
theorem finds_seq_iff : (seq p q).Finds before found after ↔
    ∃ first rest, found = first ++ rest ∧ p.Finds before first (rest ++ after) ∧
      q.Finds (before ++ first) rest after := by
  constructor
  · rintro ⟨⟨_, _⟩, hp, hq⟩
    obtain ⟨first, hfirst, rfl⟩ := hp.advances
    obtain ⟨rest, rfl, _⟩ := hq.advances
    dsimp only at hfirst hp hq
    rw [← List.append_assoc] at hfirst
    obtain rfl := List.append_cancel_right hfirst
    refine ⟨first, rest, rfl, ?_, ?_⟩
    · rw [Finds, ← List.append_assoc, List.reverse_append]
      exact hp
    · rw [Finds, List.reverse_append, List.append_assoc]
      exact hq
  · rintro ⟨first, rest, rfl, hp, hq⟩
    refine ⟨⟨(before ++ first).reverse, rest ++ after⟩, ?_, ?_⟩
    · rw [List.append_assoc]
      exact hp
    · rw [← List.append_assoc]
      exact hq

theorem finds_sequence_cons_iff {ps : List Pattern} :
    (Level.sequence (p :: ps)).Finds before found after ↔
      ∃ first rest, found = first ++ rest ∧ p.Finds before first (rest ++ after) ∧
        (Level.sequence ps).Finds (before ++ first) rest after := by
  cases ps with
  | nil =>
    simp only [Level.sequence, finds_empty_iff]
    constructor
    · exact fun hp => ⟨found, [], by simp, hp, rfl⟩
    · rintro ⟨first, _, rfl, hp, rfl⟩
      simpa using hp
  | cons q qs => exact finds_seq_iff

/-- **A sequence** matches what its parts match in turn. -/
theorem inTurn_iff {es : List String} {ps : List Pattern}
    (h : List.Forall₂ (fun e p => read? e.toList = some p) es ps) :
    InTurn Means es before found after ↔ (Level.sequence ps).Finds before found after := by
  induction h generalizing before found with
  | nil => exact finds_empty_iff.symm
  | cons hp _ ih =>
    rw [finds_sequence_cons_iff]
    simp only [InTurn, means_iff hp, ih]

theorem occursIn_iff_finds (hp : p.Proper) {text : String} : p.occursIn text = true ↔
    ∃ before found after, text.toList = before ++ found ++ after ∧ p.Finds before found after := by
  rw [occursIn_iff hp]
  constructor
  · rintro ⟨⟨start, ahead⟩, ⟨stop, after⟩, ⟨before, htext, hstart⟩, hmatch⟩
    obtain ⟨found, hahead, hstop⟩ := hmatch.advances
    dsimp only at htext hstart hahead hstop
    rw [List.append_nil] at hstart
    subst hstart hahead hstop
    refine ⟨before, found, after, by rw [htext, List.append_assoc], ?_⟩
    rw [Finds, List.reverse_append]
    exact hmatch
  · rintro ⟨before, found, after, htext, hfinds⟩
    exact ⟨_, _, ⟨before, by rw [htext, List.append_assoc], by simp⟩, hfinds⟩

end

/-! ## reading a group between anchors -/

theorem read?_of_isAnchor {x : String} (h : IsAnchor x) : ∃ p, read? x.toList = some p ∧
    ∀ r, Construct.read? (x.toList ++ r) = some (.item p, r) := by
  rcases h with rfl | rfl
  · exact ⟨anchor .textStart, rfl, fun _ => rfl⟩
  · exact ⟨anchor .textEnd, rfl, fun _ => rfl⟩

/-- anchors are read one after the other into the level that they stand in -/
theorem reads_anchors {es : List String} (h : ∀ x ∈ es, IsAnchor x) :
    ∃ ps, List.Forall₂ (fun e p => read? e.toList = some p) es ps ∧
      ∀ names l rest q, Reads ⟨names, ps.foldl .push l, []⟩ rest q →
        Reads ⟨names, l, []⟩ (es.flatMap String.toList ++ rest) q := by
  induction es with
  | nil => exact ⟨[], .nil, fun _ _ _ _ hrest => hrest⟩
  | cons e es ih =>
    obtain ⟨he, hes⟩ := List.forall_mem_cons.mp h
    obtain ⟨p, hp, hread⟩ := read?_of_isAnchor he
    obtain ⟨ps, hps, hreads⟩ := ih hes
    refine ⟨p :: ps, .cons hp hps, fun names l rest q hrest => ?_⟩
    rw [List.flatMap_cons, List.append_assoc]
    exact .step (hread _) rfl (hreads names (l.push p) rest q hrest)

theorem close_foldl_push (ps : List Pattern) :
    (ps.foldl Level.push .fresh).close = Level.sequence ps := by
  have hpush : ∀ (qs : List Pattern) (l : Level),
      qs.foldl Level.push l = ⟨l.branches, qs.reverse ++ l.items⟩ := by
    intro qs
    induction qs with
    | nil => exact fun _ => rfl
    | cons q qs ih => exact fun l => by simp [ih, Level.push]
  rw [hpush]
  simp [Level.close, Level.branch, Level.fresh, Level.alternation]

/-- **A group between anchors** is read part by part if what is in the group can be read by
itself. -/
theorem read?_join {e : String} {p : Pattern} {front back : List String}
    (he : read? e.toList = some p) (hanchors : ∀ x ∈ front ++ back, IsAnchor x) :
    ∃ ps qs, List.Forall₂ (fun e p => read? e.toList = some p) front ps ∧
      List.Forall₂ (fun e p => read? e.toList = some p) back qs ∧
      read? (String.join (front ++ group e :: back)).toList =
        some (Level.sequence (ps ++ p :: qs)) := by
  obtain ⟨hfront, hback⟩ := List.forall_mem_append.mp hanchors
  obtain ⟨ps, hps, hreadsFront⟩ := reads_anchors hfront
  obtain ⟨qs, hqs, hreadsBack⟩ := reads_anchors hback
  obtain ⟨names, hinside⟩ := (read?_eq_some_iff.mp he).inside
  refine ⟨ps, qs, hps, hqs, read?_eq_some_iff.mpr ?_⟩
  have htext : (String.join (front ++ group e :: back)).toList = front.flatMap String.toList ++
      (['(', '?', ':'] ++ (e.toList ++ ')' :: (back.flatMap String.toList ++ []))) := by
    simp [String.toList_join, group, String.toList_append]
  rw [htext]
  refine hreadsFront [] .fresh _ _ (.step rfl rfl (hinside _ _ _ (hreadsBack names _ _ _ ?_)))
  rw [← close_foldl_push, List.foldl_append]
  exact .done rfl

theorem read?_group {e : String} {p : Pattern} (he : read? e.toList = some p) :
    read? (group e).toList = some p := by
  obtain ⟨_, _, hps, hqs, hread⟩ := @read?_join e p [] [] he (fun _ hx => nomatch hx)
  cases hps
  cases hqs
  have hjoin : String.join [group e] = group e := by simp [String.join]
  rwa [List.nil_append, hjoin] at hread

/-! ## the library -/

theorem regexes_compile?_iff {e : String} {test : String → Bool} :
    regexes.compile? e = some test ↔
      ∃ p, read? e.toList = some p ∧ p.states ≤ statesAllowed ∧ test = p.occursIn := by
  show (compile? e.toList).map _ = some test ↔ _
  unfold compile?
  cases read? e.toList with
  | none => simp
  | some p =>
    dsimp only
    split
    · rename_i hsize
      simp [hsize, eq_comm, funext_iff]
    · rename_i hsize
      simp [hsize]

theorem exists_read?_of_accepts {e : String} (h : regexes.Accepts e) :
    ∃ p, read? e.toList = some p := by
  obtain ⟨_, htest⟩ := h
  obtain ⟨p, hp, _⟩ := regexes_compile?_iff.mp htest
  exact ⟨p, hp⟩

/-- **The reader has standard semantics.** -/
theorem standard_regexes : regexes.Standard Means where
  search htest text := by
    obtain ⟨p, hp, _, rfl⟩ := regexes_compile?_iff.mp htest
    rw [occursIn_iff_finds (proper_of_read? hp)]
    simp only [means_iff hp]
  textStart before found after := (@means_iff (anchor .textStart) "^" _ _ _ rfl).trans
    finds_textStart_iff
  textEnd before found after := (@means_iff (anchor .textEnd) "$" _ _ _ rfl).trans
    finds_textEnd_iff
  group_iff he before found after := by
    obtain ⟨p, hp⟩ := exists_read?_of_accepts he
    rw [means_iff hp, means_iff (read?_group hp)]
  concatenation he hanchors _ before found after := by
    obtain ⟨p, hp⟩ := exists_read?_of_accepts he
    obtain ⟨ps, qs, hps, hqs, hread⟩ := read?_join hp hanchors
    rw [means_iff hread]
    exact (inTurn_iff (List.rel_append hps (.cons (read?_group hp) hqs))).symm

end SpanishSyntax.Lexicon.Pattern
