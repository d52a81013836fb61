import SpanishSyntax.Proofs.Text.Replacement
import SpanishSyntax.Text.Entity

/-!
# Entities read back

`decode` reads an entity as its character wherever one stands, so it reads an escaped text as the
text (`decode_escapeChars`), and texts that are escaped alike are the same.  An escaped text has no
angle brackets in it (`no_angle_escapeChars`).

No entity holds a special character but the ampersand it begins with, and ampersands are replaced
first.  So the replacements in turn write each character by itself (`escapeInTurn_eq`).

* `Escaped`               no special character but ampersands, and these begin entities;
* `escaped_iff`           such texts are the escaped ones, and `decode` is the way back;
* `escapeInTurn_exact`    replacements in turn are a substitution that loses nothing.
-/

namespace SpanishSyntax.Text

def decode : List Char → List Char
  | [] => []
  | '&' :: 'a' :: 'm' :: 'p' :: ';' :: cs => '&' :: decode cs
  | '&' :: 'l' :: 't' :: ';' :: cs => '<' :: decode cs
  | '&' :: 'g' :: 't' :: ';' :: cs => '>' :: decode cs
  | '&' :: 'q' :: 'u' :: 'o' :: 't' :: ';' :: cs => '"' :: decode cs
  | '&' :: 'a' :: 'p' :: 'o' :: 's' :: ';' :: cs => '\'' :: decode cs
  | c :: cs => c :: decode cs

theorem decode_cons {c : Char} (h : c ≠ '&') (cs : List Char) :
    decode (c :: cs) = c :: decode cs := by
  rw [decode] <;> exact fun _ hc => absurd hc h

theorem decode_entity_append (c : Char) (cs : List Char) :
    decode (entity c ++ cs) = c :: decode cs := by
  unfold entity
  split
  · rfl
  · rfl
  · rfl
  · rfl
  · rfl
  · rename_i hamp _ _ _ _
    exact decode_cons hamp cs

theorem decode_escapeChars (cs : List Char) : decode (escapeChars cs) = cs := by
  induction cs with
  | nil => rfl
  | cons c cs ih => rw [escapeChars_cons, decode_entity_append, ih]

-- what was read is not read again, so that an entity in the text comes back as one
example : decode (escapeChars "&lt;".toList) = "&lt;".toList := by decide

theorem escapeChars_injective {a b : List Char} (h : escapeChars a = escapeChars b) : a = b := by
  rw [← decode_escapeChars a, h, decode_escapeChars]

theorem toList_escape (s : String) : (escape s).toList = escapeChars s.toList :=
  String.toList_ofList

/-! ## the table of entities -/

/-- the special characters with their entities, in the order of the replacements -/
def entities : List (Char × String) :=
  [('&', "&amp;"), ('<', "&lt;"), ('>', "&gt;"), ('"', "&quot;"), ('\'', "&apos;")]

theorem substitute_entities (c : Char) : substitute entities c = entity c := by
  unfold entity
  split
  · rfl
  · rfl
  · rfl
  · rfl
  · rfl
  · rename_i hamp hless hgreater hdouble hsingle
    have hpairs : ∀ pair ∈ entities, c ≠ pair.1 := by
      rw [entities]
      simp only [List.forall_mem_cons]
      exact ⟨hamp, hless, hgreater, hdouble, hsingle, List.forall_mem_nil _⟩
    exact substitute_of_forall_ne hpairs

theorem entity_cases (c : Char) :
    (∃ pair ∈ entities, c = pair.1 ∧ entity c = pair.2.toList) ∨
      ((∀ pair ∈ entities, c ≠ pair.1) ∧ entity c = [c]) := by
  rw [← substitute_entities]
  exact substitute_cases entities c

theorem escapeInTurn_eq (s : String) : escapeInTurn s = escape s := by
  have hpairs : entities.Pairwise fun earlier later => later.1 ∉ earlier.2.toList := by decide
  have hturns : escapeInTurn s = replaceInTurn entities s := rfl
  rw [← String.toList_inj, hturns, toList_replaceInTurn hpairs, toList_escape,
    funext substitute_entities, escapeChars]

/-! ## escaped texts -/

/-- no tag begins or ends in the text -/
def NoAngle (cs : List Char) : Prop := '<' ∉ cs ∧ '>' ∉ cs

instance (cs : List Char) : Decidable (NoAngle cs) :=
  inferInstanceAs (Decidable ('<' ∉ cs ∧ '>' ∉ cs))

/-- brackets and quotes are nowhere in the text, and an ampersand only where an entity begins -/
structure Escaped (cs : List Char) : Prop where
  no_special : ∀ pair ∈ entities, pair.1 ≠ '&' → pair.1 ∉ cs
  begins_entity : ∀ front behind, cs = front ++ '&' :: behind →
    ∃ pair ∈ entities, pair.2.toList <+: '&' :: behind

theorem escaped_nil : Escaped [] where
  no_special _ _ _ := List.not_mem_nil
  begins_entity front behind h :=
    absurd h.symm (List.append_ne_nil_of_right_ne_nil front (List.cons_ne_nil '&' behind))

theorem Escaped.of_append (front : List Char) {cs : List Char} (h : Escaped (front ++ cs)) :
    Escaped cs where
  no_special pair hpair hne hmem :=
    h.no_special pair hpair hne (List.mem_append_right front hmem)
  begins_entity between behind hcs :=
    h.begins_entity (front ++ between) behind (by rw [hcs, List.append_assoc])

theorem not_mem_entity {pair : Char × String} (hpair : pair ∈ entities) (hne : pair.1 ≠ '&')
    (c : Char) : pair.1 ∉ entity c := by
  have htexts : ∀ pair ∈ entities, ∀ other ∈ entities,
      other.1 ≠ '&' → other.1 ∉ pair.2.toList := by decide
  rcases entity_cases c with ⟨written, hwritten, _, htext⟩ | ⟨hothers, hitself⟩
  · rw [htext]
    exact htexts written hwritten pair hpair hne
  · rw [hitself]
    intro hmem
    exact hothers pair hpair (List.mem_singleton.mp hmem).symm

theorem begins_of_entity_eq {c : Char} {front behind : List Char}
    (h : entity c = front ++ '&' :: behind) :
    front = [] ∧ ∃ pair ∈ entities, pair.2.toList = '&' :: behind := by
  have htails : ∀ pair ∈ entities, '&' ∉ pair.2.toList.tail := by decide
  have hfront : '&' ∉ (entity c).tail → front = [] := by
    intro htail
    cases front with
    | nil => rfl
    | cons x front =>
      rw [h] at htail
      exact absurd (List.mem_append_right front List.mem_cons_self) htail
  rcases entity_cases c with ⟨pair, hpair, _, htext⟩ | ⟨hne, hitself⟩
  · obtain rfl := hfront (htext ▸ htails pair hpair)
    exact ⟨rfl, pair, hpair, htext.symm.trans h⟩
  · obtain rfl := hfront (hitself ▸ List.not_mem_nil)
    have hamp : c = '&' := (List.cons.inj (hitself.symm.trans h)).1
    exact absurd hamp (hne ('&', "&amp;") List.mem_cons_self)

theorem Escaped.entity_append {cs : List Char} (h : Escaped cs) (c : Char) :
    Escaped (entity c ++ cs) where
  no_special pair hpair hne hmem := by
    rcases List.mem_append.mp hmem with hmem | hmem
    · exact not_mem_entity hpair hne c hmem
    · exact h.no_special pair hpair hne hmem
  begins_entity front behind hcs := by
    rcases List.append_eq_append_iff.mp hcs with ⟨front, rfl, hrest⟩ | ⟨part, hentity, hrest⟩
    · exact h.begins_entity front behind hrest
    · cases part with
      | nil => exact h.begins_entity [] behind hrest.symm
      | cons x part =>
        obtain ⟨rfl, rfl⟩ := List.cons.inj hrest
        obtain ⟨_, pair, hpair, htext⟩ := begins_of_entity_eq hentity
        exact ⟨pair, hpair, htext ▸ List.prefix_append _ cs⟩

theorem escaped_escapeChars (cs : List Char) : Escaped (escapeChars cs) := by
  induction cs with
  | nil => exact escaped_nil
  | cons c cs ih => exact ih.entity_append c

theorem no_angle_escapeChars (cs : List Char) : NoAngle (escapeChars cs) :=
  ⟨(escaped_escapeChars cs).no_special ('<', "&lt;") (by decide) (by decide),
    (escaped_escapeChars cs).no_special ('>', "&gt;") (by decide) (by decide)⟩

theorem Escaped.entity_eq {c : Char} {cs : List Char} (h : Escaped (c :: cs)) (hamp : c ≠ '&') :
    entity c = [c] := by
  rcases entity_cases c with ⟨pair, hpair, rfl, _⟩ | ⟨_, hitself⟩
  · exact absurd List.mem_cons_self (h.no_special pair hpair hamp)
  · exact hitself

theorem escapeChars_decode {cs : List Char} (h : Escaped cs) : escapeChars (decode cs) = cs := by
  have hentity : ∀ (c : Char) (rest : List Char), Escaped (entity c ++ rest) →
      (Escaped rest → escapeChars (decode rest) = rest) →
      escapeChars (c :: decode rest) = entity c ++ rest := by
    intro c rest hrest ih
    rw [escapeChars_cons, ih (hrest.of_append (entity c))]
  fun_induction decode cs with
  | case1 => rfl
  | case2 cs ih => exact hentity '&' cs h ih
  | case3 cs ih => exact hentity '<' cs h ih
  | case4 cs ih => exact hentity '>' cs h ih
  | case5 cs ih => exact hentity '"' cs h ih
  | case6 cs ih => exact hentity '\'' cs h ih
  | case7 c cs hno_amp hno_lt hno_gt hno_quot hno_apos ih =>
    -- an ampersand here would begin one of the five entities, which were read before
    have hamp : c ≠ '&' := by
      intro hc
      obtain ⟨pair, hpair, behind, htext⟩ := h.begins_entity [] cs (by rw [hc, List.nil_append])
      simp only [entities, List.mem_cons, List.not_mem_nil, or_false] at hpair
      rcases hpair with rfl | rfl | rfl | rfl | rfl
      · exact hno_amp behind hc (List.cons.inj htext).2.symm
      · exact hno_lt behind hc (List.cons.inj htext).2.symm
      · exact hno_gt behind hc (List.cons.inj htext).2.symm
      · exact hno_quot behind hc (List.cons.inj htext).2.symm
      · exact hno_apos behind hc (List.cons.inj htext).2.symm
    have hitself : entity c = [c] := h.entity_eq hamp
    have hread := hentity c cs (hitself ▸ h) ih
    rwa [hitself] at hread

/-- texts without special characters, in which ampersands begin entities, are the escaped ones -/
theorem escaped_iff (cs : List Char) : Escaped cs ↔ ∃ s : String, (escapeInTurn s).toList = cs := by
  constructor
  · intro h
    refine ⟨String.ofList (decode cs), ?_⟩
    rw [escapeInTurn_eq, toList_escape, String.toList_ofList, escapeChars_decode h]
  · rintro ⟨s, rfl⟩
    rw [escapeInTurn_eq, toList_escape]
    exact escaped_escapeChars s.toList

/-- **To escape a text is one substitution, and loses nothing**: replacing one special character
after the other writes each character by itself, so a text can be escaped in parts; what is written
are the texts in which only ampersands that begin entities are special, and it reads as the text. -/
theorem escapeInTurn_exact (s t : String) :
    escapeInTurn s = escape s ∧
      (escapeInTurn s).toList = s.toList.flatMap entity ∧
      escapeInTurn (s ++ t) = escapeInTurn s ++ escapeInTurn t ∧
      (∀ cs, Escaped cs ↔ ∃ u : String, (escapeInTurn u).toList = cs) ∧
      decode (escapeInTurn s).toList = s.toList := by
  have htext : ∀ u : String, (escapeInTurn u).toList = escapeChars u.toList := by
    intro u
    rw [escapeInTurn_eq, toList_escape]
  refine ⟨escapeInTurn_eq s, htext s, ?_, escaped_iff, ?_⟩
  · rw [← String.toList_inj, String.toList_append, htext, htext, htext, String.toList_append,
      escapeChars_append]
  · rw [htext, decode_escapeChars]

end SpanishSyntax.Text
