import Mathlib.Data.List.Pairwise
import SpanishSyntax.Automaton.Stock
import SpanishSyntax.Proofs.Automaton.Run
import SpanishSyntax.Proofs.Text.Classes

/-!
# The languages of the stock automata

The edges of a stock automaton come in fans, one for a source, a list of symbols and a target, so
its transition function is read off the fans (`WellFormed.step?_of_fan`).

* the identifier automaton is behind its first character in `q1` for good (`reach?_identifier`);
* an ending automaton is in the state that the last two characters decide (`foldl_after_concat`):
  `q2` behind the ending, if something came before it;
* a halt for want of a transition needs a symbol of the alphabet without an edge: the ending
  automata have none, and in the identifier automaton only the digits at the start are such.
-/

namespace SpanishSyntax.Automaton

open Blueprint

/-! ## fans -/

/-- edges from one state to another, one for each symbol -/
structure Fan where
  source : String
  symbols : List Char
  target : String

def Fan.edges (f : Fan) : List Edge := f.symbols.map fun c => ⟨f.source, c, f.target⟩

theorem Fan.mem_edges {f : Fan} {e : Edge} :
    e ∈ f.edges ↔ e.source = f.source ∧ e.symbol ∈ f.symbols ∧ e.target = f.target := by
  obtain ⟨source, symbol, target⟩ := e
  rw [edges, List.mem_map]
  constructor
  · rintro ⟨c, hc, h⟩
    cases h
    exact ⟨rfl, hc, rfl⟩
  · rintro ⟨rfl, hc, rfl⟩
    exact ⟨symbol, hc, rfl⟩

/-- fans that leave one state do so on different symbols -/
def Fan.Apart (f g : Fan) : Prop := f.source = g.source → ∀ c ∈ f.symbols, c ∉ g.symbols

theorem pairwise_apart_fans {fans : List Fan} (hnodup : ∀ f ∈ fans, f.symbols.Nodup)
    (hapart : fans.Pairwise Fan.Apart) : (fans.flatMap Fan.edges).Pairwise Blueprint.Apart := by
  refine List.pairwise_flatMap.mpr ⟨fun f hf => pairwise_apart_fan.mpr (hnodup f hf), ?_⟩
  refine hapart.imp fun {f g} hfg e he e' he' => ?_
  obtain ⟨hsource, hsymbol, _⟩ := Fan.mem_edges.mp he
  obtain ⟨hsource', hsymbol', _⟩ := Fan.mem_edges.mp he'
  rintro ⟨hsame, hc⟩
  exact hfg (hsource ▸ hsource' ▸ hsame) e.symbol hsymbol (hc ▸ hsymbol')

section
variable {b : Blueprint} {i : String} {fans : List Fan}

theorem Blueprint.wellFormed_of_fans (hedges : b.edges = fans.flatMap Fan.edges)
    (hids : b.ids.Nodup) (hinitial : b.initial = some i) (hi : i ∈ b.ids)
    (hfans : ∀ f ∈ fans, f.source ∈ b.ids ∧ f.target ∈ b.ids ∧ f.symbols ⊆ b.alphabet ∧
      f.symbols.Nodup)
    (hapart : fans.Pairwise Fan.Apart) : b.WellFormed i where
  ids_nodup := hids
  initial := hinitial
  initial_mem := hi
  declares e he := by
    rw [hedges] at he
    obtain ⟨f, hf, he⟩ := List.mem_flatMap.mp he
    obtain ⟨hsource, hsymbol, htarget⟩ := Fan.mem_edges.mp he
    obtain ⟨hs, ht, hsub, _⟩ := hfans f hf
    exact ⟨hsource ▸ hs, hsub hsymbol, htarget ▸ ht⟩
  deterministic := by
    rw [hedges]
    exact pairwise_apart_fans (fun f hf => (hfans f hf).2.2.2) hapart

theorem Blueprint.WellFormed.step?_of_fan (hwf : b.WellFormed i)
    (hedges : b.edges = fans.flatMap Fan.edges) {f : Fan} (hf : f ∈ fans) {c : Char}
    (hc : c ∈ f.symbols) :
    (b.assemble i).step? (b.stateNamed f.source) c = some (b.stateNamed f.target) := by
  have he : ⟨f.source, c, f.target⟩ ∈ b.edges := by
    rw [hedges]
    exact List.mem_flatMap.mpr ⟨f, hf, Fan.mem_edges.mpr ⟨rfl, hc, rfl⟩⟩
  exact hwf.step?_assemble_iff.mpr ⟨_, he, rfl, rfl, rfl⟩

/-- a state that one fan leaves has the transitions of that fan -/
theorem Blueprint.WellFormed.step?_of_one_fan (hwf : b.WellFormed i)
    (hedges : b.edges = fans.flatMap Fan.edges) {f : Fan} (hf : f ∈ fans)
    (hone : ∀ g ∈ fans, g.source = f.source → g = f) (c : Char) :
    (b.assemble i).step? (b.stateNamed f.source) c =
      if c ∈ f.symbols then some (b.stateNamed f.target) else none := by
  split
  · rename_i hc
    exact hwf.step?_of_fan hedges hf hc
  · rename_i hc
    refine Option.eq_none_iff_forall_not_mem.mpr fun s hs => hc ?_
    obtain ⟨e, he, hsource, rfl, _⟩ := hwf.step?_assemble_iff.mp hs
    rw [hedges] at he
    obtain ⟨g, hg, he⟩ := List.mem_flatMap.mp he
    obtain ⟨hgsource, hsymbol, _⟩ := Fan.mem_edges.mp he
    rwa [hone g hg (hgsource.symm.trans hsource)] at hsymbol

theorem Blueprint.WellFormed.mem_transitions_of_fan (hwf : b.WellFormed i)
    (hedges : b.edges = fans.flatMap Fan.edges) {f : Fan} (hf : f ∈ fans) {c : Char}
    (hc : c ∈ f.symbols) : (c, f.target) ∈ (b.stateNamed f.source).transitions := by
  refine hwf.mem_transitions_iff.mpr ?_
  rw [hedges]
  exact List.mem_flatMap.mpr ⟨f, hf, Fan.mem_edges.mpr ⟨rfl, hc, rfl⟩⟩

end

/-! ## classes of characters -/

/-- the characters with the `n` code points from `base` on -/
def charsFrom (base n : Nat) : List Char := (List.range n).map fun k => Char.ofNat (base + k)

theorem mem_charsFrom {base n : Nat} (h : base + n ≤ 0xD800) {c : Char} :
    c ∈ charsFrom base n ↔ base ≤ c.toNat ∧ c.toNat < base + n := by
  rw [charsFrom, List.mem_map]
  constructor
  · rintro ⟨k, hk, rfl⟩
    have hk := List.mem_range.mp hk
    have hvalid : (base + k).isValidChar := .inl (by omega)
    have hchar : Char.ofNat (base + k) = Char.ofNatAux (base + k) hvalid := dif_pos hvalid
    rw [hchar]
    show base ≤ base + k ∧ base + k < base + n
    omega
  · rintro ⟨hlow, hhigh⟩
    refine ⟨c.toNat - base, List.mem_range.mpr (by omega), ?_⟩
    rw [Nat.add_sub_cancel' hlow, Char.ofNat_toNat]

namespace Stock

theorem mem_smallLetters {c : Char} : c ∈ smallLetters ↔ c.isLower = true := by
  have hlist : smallLetters = charsFrom 97 26 := by decide
  rw [hlist, mem_charsFrom (by decide)]
  change _ ↔ (decide ('a'.val ≤ c.val) && decide (c.val ≤ 'z'.val)) = true
  simp only [Bool.and_eq_true, decide_eq_true_eq, UInt32.le_iff_toNat_le]
  show _ ↔ 97 ≤ c.toNat ∧ c.toNat ≤ 122
  omega

theorem mem_capitalLetters {c : Char} : c ∈ capitalLetters ↔ c.isUpper = true := by
  have hlist : capitalLetters = charsFrom 65 26 := by decide
  rw [hlist, mem_charsFrom (by decide)]
  change _ ↔ decide ('A'.val ≤ c.val ∧ c.val ≤ 'Z'.val) = true
  simp only [decide_eq_true_eq, UInt32.le_iff_toNat_le]
  show _ ↔ 65 ≤ c.toNat ∧ c.toNat ≤ 90
  omega

theorem mem_digits {c : Char} : c ∈ digits ↔ c.isDigit = true := by
  have hlist : digits = charsFrom 48 10 := by decide
  rw [hlist, mem_charsFrom (by decide), Text.isDigit_iff]
  omega

/-- what an identifier can begin with: an ASCII letter, an accented letter of Spanish or `_` -/
def BeginsName (c : Char) : Prop := c.isAlpha = true ∨ c ∈ accentedLetters ∨ c = '_'

/-- what can stand behind the beginning -/
def ContinuesName (c : Char) : Prop := BeginsName c ∨ c.isDigit = true

theorem mem_identifierHead {c : Char} : c ∈ identifierHead ↔ BeginsName c := by
  have halpha : c.isAlpha = true ↔ c.isLower = true ∨ c.isUpper = true :=
    Bool.or_eq_true_iff.trans or_comm
  rw [identifierHead, List.mem_append, List.mem_append, List.mem_append, mem_smallLetters,
    mem_capitalLetters, List.mem_singleton, or_assoc, BeginsName, halpha]

theorem mem_identifierTail {c : Char} : c ∈ identifierTail ↔ ContinuesName c := by
  rw [identifierTail, List.mem_append, mem_identifierHead, mem_digits, ContinuesName]

/-! ## identifiers -/

def identifierFans : List Fan := [⟨"q0", identifierHead, "q1"⟩, ⟨"q1", identifierTail, "q1"⟩]

theorem identifierBlueprint_eq : identifierBlueprint =
    ⟨"identifier", "letter or '_' followed by letters, digits or '_'",
      Ascending.ofList identifierTail, [("q0", false), ("q1", true)], some "q0",
      identifierFans.flatMap Fan.edges⟩ := by
  have hheader : ∀ symbols, [Clause.description "letter or '_' followed by letters, digits or '_'",
      .symbols symbols, .state "q0" false, .state "q1" true, .initial "q0"].foldl add
        (empty "identifier") =
    ⟨"identifier", "letter or '_' followed by letters, digits or '_'", Ascending.ofList symbols,
      [("q0", false), ("q1", true)], some "q0", []⟩ := fun _ => rfl
  unfold identifierBlueprint ofClauses
  simp only [List.foldl_append, foldl_fan, hheader, identifierFans, Fan.edges, List.flatMap_cons,
    List.flatMap_nil, List.nil_append, List.append_nil]

theorem edges_identifier : identifierBlueprint.edges = identifierFans.flatMap Fan.edges := by
  rw [identifierBlueprint_eq]

theorem ids_identifier : identifierBlueprint.ids = ["q0", "q1"] := by
  rw [identifierBlueprint_eq]
  rfl

theorem mem_alphabet_identifier {c : Char} :
    c ∈ identifierBlueprint.alphabet ↔ c ∈ identifierTail := by
  rw [identifierBlueprint_eq]
  exact Ascending.mem_ofList

theorem wellFormed_identifier : identifierBlueprint.WellFormed "q0" := by
  have htail : identifierTail.Nodup := by decide +kernel
  refine wellFormed_of_fans edges_identifier ?_ (by rw [identifierBlueprint_eq]) ?_ ?_ ?_
  · rw [ids_identifier]
    decide
  · rw [ids_identifier]
    decide
  · rw [ids_identifier]
    intro f hf
    rcases List.mem_cons.mp hf with rfl | hf
    · exact ⟨by decide, by decide,
        fun c hc => mem_alphabet_identifier.mpr (List.mem_append_left _ hc),
        htail.sublist (List.sublist_append_left _ _)⟩
    · obtain rfl := List.mem_singleton.mp hf
      exact ⟨by decide, by decide, fun c hc => mem_alphabet_identifier.mpr hc, htail⟩
  · refine List.pairwise_pair.mpr fun hsource => ?_
    exact absurd hsource (by decide)

theorem consistent_identifier : (identifierBlueprint.assemble "q0").Consistent :=
  wellFormed_identifier.consistent_assemble (ascends_alphabet_ofClauses _ _)

theorem step?_identifier {f : Fan} (hf : f ∈ identifierFans) (c : Char) :
    (identifierBlueprint.assemble "q0").step? (identifierBlueprint.stateNamed f.source) c =
      if c ∈ f.symbols then some (identifierBlueprint.stateNamed "q1") else none := by
  have hone : ∀ f ∈ identifierFans, f.target = "q1" ∧
      ∀ g ∈ identifierFans, g.source = f.source → g = f := by
    simp [identifierFans]
  rw [wellFormed_identifier.step?_of_one_fan edges_identifier hf (hone f hf).2, (hone f hf).1]

/-- behind its first character an identifier goes on as long as the characters continue a name -/
theorem reach?_identifier (cs : List Char) :
    (identifierBlueprint.assemble "q0").reach? (identifierBlueprint.stateNamed "q1") cs =
      if cs.all (· ∈ identifierTail) then some (identifierBlueprint.stateNamed "q1") else none := by
  induction cs with
  | nil => exact reach?_nil _ _
  | cons c cs ih =>
    have hstep := step?_identifier (f := ⟨"q1", identifierTail, "q1"⟩) (by simp [identifierFans]) c
    rw [reach?, hstep, List.all_cons]
    by_cases hc : c ∈ identifierTail
    · rw [if_pos hc, Option.bind_some, ih, decide_eq_true hc, Bool.true_and]
    · rw [if_neg hc, Option.bind_none, decide_eq_false hc, Bool.false_and,
        if_neg Bool.false_ne_true]

theorem accepts_identifier_iff (x : String) :
    (identifierBlueprint.assemble "q0").accepts x = true ↔
      ∃ c cs, x.toList = c :: cs ∧ BeginsName c ∧ ∀ d ∈ cs, ContinuesName d := by
  have hq0 : (identifierBlueprint.stateNamed "q0").accepting = false := by
    rw [identifierBlueprint_eq]
    rfl
  have hq1 : (identifierBlueprint.stateNamed "q1").accepting = true := by
    rw [identifierBlueprint_eq]
    rfl
  unfold accepts
  rw [start_assemble wellFormed_identifier.initial_mem]
  cases x.toList with
  | nil =>
    rw [reach?_nil]
    exact iff_of_false (Bool.eq_false_iff.mp hq0) fun ⟨_, _, hfalse, _⟩ => nomatch hfalse
  | cons c cs =>
    have hstep := step?_identifier (f := ⟨"q0", identifierHead, "q1"⟩) (by simp [identifierFans]) c
    have hname : (∃ d ds, c :: cs = d :: ds ∧ BeginsName d ∧ ∀ e ∈ ds, ContinuesName e) ↔
        c ∈ identifierHead ∧ ∀ e ∈ cs, e ∈ identifierTail := by
      simp only [mem_identifierHead, mem_identifierTail]
      constructor
      · rintro ⟨_, _, h, hbegins, hcontinues⟩
        cases h
        exact ⟨hbegins, hcontinues⟩
      · exact fun h => ⟨c, cs, rfl, h⟩
    rw [hname, reach?, hstep]
    by_cases hc : c ∈ identifierHead
    · rw [if_pos hc, Option.bind_some, reach?_identifier]
      have hall : cs.all (· ∈ identifierTail) = true ↔ ∀ e ∈ cs, e ∈ identifierTail := by
        simp only [List.all_eq_true, decide_eq_true_eq]
      by_cases hcs : ∀ e ∈ cs, e ∈ identifierTail
      · rw [if_pos (hall.mpr hcs)]
        exact iff_of_true hq1 ⟨hc, hcs⟩
      · rw [if_neg fun h => hcs (hall.mp h)]
        exact iff_of_false Bool.false_ne_true fun h => hcs h.2
    · rw [if_neg hc]
      exact iff_of_false Bool.false_ne_true fun h => hc h.1

/-- a transition leads to `q1`, so the run is in `q0` at the start only -/
theorem eq_nil_of_path_identifier {s t : State} {ts : List Transition}
    (h : (identifierBlueprint.assemble "q0").Path s ts t)
    (hs : s ∈ (identifierBlueprint.assemble "q0").states) : ts = [] ∧ t = s ∨ t.id = "q1" := by
  induction h with
  | nil => exact .inl ⟨rfl, rfl⟩
  | cons hedge ht _ ih =>
    right
    rcases ih ht with ⟨_, rfl⟩ | hid
    · obtain ⟨id, _, rfl⟩ := mem_states_assemble.mp hs
      have he := wellFormed_identifier.mem_transitions_iff.mp hedge
      rw [edges_identifier] at he
      obtain ⟨f, hf, he⟩ := List.mem_flatMap.mp he
      have htargets : ∀ f ∈ identifierFans, f.target = "q1" := by simp [identifierFans]
      exact (Fan.mem_edges.mp he).2.2.trans (htargets f hf)
    · exact hid

theorem noTransition_identifier {x q : String} {c : Char} {n : Nat}
    (h : ((identifierBlueprint.assemble "q0").simulate x).halt = some (.noTransition q c n)) :
    n = 0 ∧ c.isDigit = true := by
  obtain ⟨ts, last, hlast, hpath, rfl, hc, hnone⟩ := exists_stuck consistent_identifier h
  have hmem : c ∈ identifierBlueprint.alphabet := hc
  have hc : c ∈ identifierTail := mem_alphabet_identifier.mp hmem
  obtain ⟨id, hid, rfl⟩ := mem_states_assemble.mp hlast
  rw [ids_identifier] at hid
  have hq0 : id = "q0" := by
    refine (List.mem_pair.mp hid).resolve_right ?_
    rintro rfl
    exact hnone _ (wellFormed_identifier.mem_transitions_of_fan edges_identifier
      (f := ⟨"q1", identifierTail, "q1"⟩) (by simp [identifierFans]) hc)
  subst hq0
  have hhead : c ∉ identifierHead := fun hmem =>
    hnone _ (wellFormed_identifier.mem_transitions_of_fan edges_identifier
      (f := ⟨"q0", identifierHead, "q1"⟩) (by simp [identifierFans]) hmem)
  refine ⟨?_, mem_digits.mp ((List.mem_append.mp hc).resolve_left hhead)⟩
  rcases eq_nil_of_path_identifier hpath consistent_identifier.start_mem with ⟨rfl, _⟩ | hid
  · rfl
  · have hsame : "q0" = "q1" := hid
    exact absurd hsame (by decide)

/-! ## endings -/

section
variable (name description : String) (last : Char)

def endingFans : List Fan :=
  [⟨"q0", smallLetters, "q1"⟩,
    ⟨"q1", smallLetters.filter (· ≠ last), "q1"⟩, ⟨"q1", [last], "q2"⟩,
    ⟨"q2", smallLetters.filter (· ≠ last), "q1"⟩, ⟨"q2", [last], "q2"⟩]

/-- the state after `c` -/
def after (id : String) (c : Char) : String := if id ≠ "q0" ∧ c = last then "q2" else "q1"

theorem endingBlueprint_eq : endingBlueprint name description last =
    ⟨name, description, Ascending.ofList smallLetters,
      [("q0", false), ("q1", false), ("q2", true)], some "q0",
      (endingFans last).flatMap Fan.edges⟩ := by
  have hheader : ∀ symbols, [Clause.description description, .symbols symbols, .state "q0" false,
      .state "q1" false, .state "q2" true, .initial "q0"].foldl add (empty name) =
    ⟨name, description, Ascending.ofList symbols,
      [("q0", false), ("q1", false), ("q2", true)], some "q0", []⟩ := fun _ => rfl
  unfold endingBlueprint ofClauses
  simp only [List.foldl_append, foldl_fan, hheader, endingFans, Fan.edges, List.flatMap_cons,
    List.flatMap_nil, List.nil_append, List.append_nil, List.append_assoc]

theorem edges_ending :
    (endingBlueprint name description last).edges = (endingFans last).flatMap Fan.edges := by
  rw [endingBlueprint_eq]

theorem ids_ending : (endingBlueprint name description last).ids = ["q0", "q1", "q2"] := by
  rw [endingBlueprint_eq]
  rfl

theorem mem_alphabet_ending {c : Char} :
    c ∈ (endingBlueprint name description last).alphabet ↔ c ∈ smallLetters := by
  rw [endingBlueprint_eq]
  exact Ascending.mem_ofList

variable {last}

theorem wellFormed_ending (hlast : last ∈ smallLetters) :
    (endingBlueprint name description last).WellFormed "q0" := by
  have hsmall : smallLetters.Nodup := by decide
  have hothers : smallLetters.filter (· ≠ last) ⊆ smallLetters :=
    fun c hc => (List.mem_filter.mp hc).1
  refine wellFormed_of_fans (edges_ending name description last) ?_
    (by rw [endingBlueprint_eq]) ?_ ?_ ?_
  · rw [ids_ending]
    decide
  · rw [ids_ending]
    decide
  · rw [ids_ending]
    have halphabet : ∀ symbols : List Char, symbols ⊆ smallLetters →
        symbols ⊆ (endingBlueprint name description last).alphabet := fun symbols h c hc =>
      (mem_alphabet_ending name description last).mpr (h hc)
    have hone : [last] ⊆ smallLetters := fun c hc => List.mem_singleton.mp hc ▸ hlast
    simp only [endingFans, List.forall_mem_cons]
    refine ⟨⟨?_, ?_, halphabet _ (List.Subset.refl _), hsmall⟩,
      ⟨?_, ?_, halphabet _ hothers, hsmall.filter _⟩,
      ⟨?_, ?_, halphabet _ hone, List.nodup_singleton _⟩,
      ⟨?_, ?_, halphabet _ hothers, hsmall.filter _⟩,
      ⟨?_, ?_, halphabet _ hone, List.nodup_singleton _⟩, fun _ h => nomatch h⟩ <;> decide
  · have hends : ∀ c ∈ smallLetters.filter (· ≠ last), c ∉ [last] := fun c hc h => by
      have hne := (List.mem_filter.mp hc).2
      rw [List.mem_singleton.mp h] at hne
      simp at hne
    simp [endingFans, Fan.Apart]

/-- the fan that an edge on `c` belongs to -/
theorem exists_fan (last : Char) {id : String} (hid : id ∈ ["q0", "q1", "q2"]) {c : Char}
    (hc : c ∈ smallLetters) :
    ∃ f ∈ endingFans last, f.source = id ∧ c ∈ f.symbols ∧ f.target = after last id c := by
  by_cases h : c = last
  · subst h
    simp only [List.mem_cons, List.not_mem_nil, or_false] at hid
    rcases hid with rfl | rfl | rfl
    · exact ⟨⟨"q0", smallLetters, "q1"⟩, by simp [endingFans], rfl, hc, by simp [after]⟩
    · exact ⟨⟨"q1", [c], "q2"⟩, by simp [endingFans], rfl, by simp, by simp [after]⟩
    · exact ⟨⟨"q2", [c], "q2"⟩, by simp [endingFans], rfl, by simp, by simp [after]⟩
  · have hother : c ∈ smallLetters.filter (· ≠ last) := List.mem_filter.mpr ⟨hc, by simpa using h⟩
    simp only [List.mem_cons, List.not_mem_nil, or_false] at hid
    rcases hid with rfl | rfl | rfl
    · exact ⟨⟨"q0", smallLetters, "q1"⟩, by simp [endingFans], rfl, hc, by simp [after]⟩
    · exact ⟨⟨"q1", smallLetters.filter (· ≠ last), "q1"⟩, by simp [endingFans], rfl, hother,
        by simp [after, h]⟩
    · exact ⟨⟨"q2", smallLetters.filter (· ≠ last), "q1"⟩, by simp [endingFans], rfl, hother,
        by simp [after, h]⟩

variable {name description}

theorem consistent_ending (hlast : last ∈ smallLetters) :
    ((endingBlueprint name description last).assemble "q0").Consistent :=
  (wellFormed_ending name description hlast).consistent_assemble (ascends_alphabet_ofClauses _ _)

theorem after_mem (last : Char) (id : String) (c : Char) :
    after last id c ∈ ["q0", "q1", "q2"] := by
  unfold after
  split <;> simp

theorem reach?_ending (hlast : last ∈ smallLetters) {cs : List Char}
    (hcs : ∀ c ∈ cs, c ∈ smallLetters) {id : String} (hid : id ∈ ["q0", "q1", "q2"]) :
    ((endingBlueprint name description last).assemble "q0").reach?
        ((endingBlueprint name description last).stateNamed id) cs =
      some ((endingBlueprint name description last).stateNamed (cs.foldl (after last) id)) := by
  induction cs generalizing id with
  | nil => rfl
  | cons c cs ih =>
    obtain ⟨hc, hcs⟩ := List.forall_mem_cons.mp hcs
    obtain ⟨f, hf, rfl, hsymbol, htarget⟩ := exists_fan last hid hc
    rw [reach?, (wellFormed_ending name description hlast).step?_of_fan
      (edges_ending name description last) hf hsymbol, Option.bind_some, htarget]
    exact ih hcs (after_mem last _ c)

/-- the last two characters decide the state -/
theorem foldl_after_concat (last : Char) (cs : List Char) (c : Char) :
    (cs ++ [c]).foldl (after last) "q0" = if cs ≠ [] ∧ c = last then "q2" else "q1" := by
  have hmoved : ∀ ds, List.foldl (after last) "q0" ds ≠ "q0" ↔ ds ≠ [] := by
    intro ds
    rcases List.eq_nil_or_concat' ds with rfl | ⟨es, e, rfl⟩
    · simp
    · rw [List.foldl_concat, after]
      split <;> simp
  rw [List.foldl_concat, after]
  simp only [hmoved]

theorem accepts_ending_iff (hlast : last ∈ smallLetters) (x : String) :
    ((endingBlueprint name description last).assemble "q0").accepts x = true ↔
      2 ≤ x.toList.length ∧ (∀ c ∈ x.toList, c.isLower = true) ∧
        x.toList.getLast? = some last := by
  have haccepting : ∀ id, ((endingBlueprint name description last).stateNamed id).accepting = true ↔
      id = "q2" := fun id => by
    rw [endingBlueprint_eq]
    show ([("q0", false), ("q1", false), ("q2", true)].any fun s =>
      s.1 = id ∧ s.2 = true) = true ↔ _
    rw [List.any_eq_true]
    constructor
    · rintro ⟨s, hs, hid⟩
      obtain ⟨rfl, hacc⟩ := of_decide_eq_true hid
      simp only [List.mem_cons, List.not_mem_nil, or_false] at hs
      rcases hs with rfl | rfl | rfl
      · cases hacc
      · cases hacc
      · rfl
    · rintro rfl
      exact ⟨("q2", true), by simp, rfl⟩
  unfold accepts
  rw [start_assemble (wellFormed_ending name description hlast).initial_mem]
  generalize x.toList = cs
  by_cases hcs : ∀ c ∈ cs, c ∈ smallLetters
  · have hlower : ∀ c ∈ cs, c.isLower = true := fun c hc => mem_smallLetters.mp (hcs c hc)
    rw [reach?_ending hlast hcs (by simp)]
    refine (haccepting _).trans ?_
    rcases List.eq_nil_or_concat' cs with rfl | ⟨ds, d, rfl⟩
    · simp
    · rw [foldl_after_concat, List.getLast?_concat]
      have hlength : 2 ≤ (ds ++ [d]).length ↔ ds ≠ [] := by
        rw [List.length_append, List.length_singleton, ← List.length_pos_iff]
        omega
      rw [hlength, Option.some.injEq]
      split
      · rename_i h
        exact iff_of_true rfl ⟨h.1, hlower, h.2⟩
      · rename_i h
        exact iff_of_false (by decide) fun hends => h ⟨hends.1, hends.2.2⟩
  · have hnone : ((endingBlueprint name description last).assemble "q0").reach?
        ((endingBlueprint name description last).stateNamed "q0") cs = none := by
      refine Option.eq_none_iff_forall_not_mem.mpr fun t ht => hcs fun c hc => ?_
      exact (mem_alphabet_ending name description last).mp (mem_alphabet_of_reach? ht c hc)
    rw [hnone]
    exact iff_of_false Bool.false_ne_true fun h =>
      hcs fun c hc => mem_smallLetters.mpr (h.2.1 c hc)

/-- every state has a transition on every symbol -/
theorem noTransition_ending (hlast : last ∈ smallLetters) (x q : String) (c : Char) (n : Nat) :
    (((endingBlueprint name description last).assemble "q0").simulate x).halt ≠
      some (.noTransition q c n) := by
  intro h
  obtain ⟨ts, s, hs, _, _, hc, hnone⟩ := exists_stuck (consistent_ending hlast) h
  obtain ⟨id, hid, rfl⟩ := mem_states_assemble.mp hs
  rw [ids_ending] at hid
  have hmem : c ∈ (endingBlueprint name description last).alphabet := hc
  obtain ⟨f, hf, rfl, hsymbol, _⟩ :=
    exists_fan last hid ((mem_alphabet_ending name description last).mp hmem)
  exact hnone _ ((wellFormed_ending name description hlast).mem_transitions_of_fan
    (edges_ending name description last) hf hsymbol)

end

/-- two or more small ASCII letters, the last one `last` -/
def EndsIn (last : Char) (cs : List Char) : Prop :=
  2 ≤ cs.length ∧ (∀ c ∈ cs, c.isLower = true) ∧ cs.getLast? = some last

theorem recognizes_ending (name description : String) {last : Char}
    (hlast : last ∈ smallLetters) :
    ∃ a, (endingBlueprint name description last).build = .ok a ∧
      (∀ x, a.accepts x = true ↔ EndsIn last x.toList) ∧
      ∀ x q c n, (a.simulate x).halt ≠ some (.noTransition q c n) :=
  ⟨_, build_eq_ok_iff.mpr ⟨"q0", wellFormed_ending name description hlast, rfl⟩,
    accepts_ending_iff hlast, noTransition_ending hlast⟩

/-- **The stock automata can be built and recognize their languages.**  The identifier automaton has
no transition only for a digit at the start, and the other two lack none. -/
theorem stock_languages :
    (∃ b a, blueprint? "identifier" = some b ∧ b.build = .ok a ∧
      (∀ x, a.accepts x = true ↔
        ∃ c cs, x.toList = c :: cs ∧ BeginsName c ∧ ∀ d ∈ cs, ContinuesName d) ∧
      ∀ x q c n, (a.simulate x).halt = some (.noTransition q c n) → n = 0 ∧ c.isDigit = true) ∧
    (∃ b a, blueprint? "verb" = some b ∧ b.build = .ok a ∧
      (∀ x, a.accepts x = true ↔ EndsIn 'r' x.toList) ∧
      ∀ x q c n, (a.simulate x).halt ≠ some (.noTransition q c n)) ∧
    ∃ b a, blueprint? "noun" = some b ∧ b.build = .ok a ∧
      (∀ x, a.accepts x = true ↔ EndsIn 'o' x.toList) ∧
      ∀ x q c n, (a.simulate x).halt ≠ some (.noTransition q c n) := by
  refine ⟨?_, ?_, ?_⟩
  · exact ⟨_, _, rfl, build_eq_ok_iff.mpr ⟨"q0", wellFormed_identifier, rfl⟩,
      accepts_identifier_iff, fun _ _ _ _ => noTransition_identifier⟩
  · have hr : 'r' ∈ smallLetters := by decide
    obtain ⟨a, ha⟩ := recognizes_ending "verb" "lowercase word ending in 'r'" hr
    exact ⟨_, a, rfl, ha⟩
  · have ho : 'o' ∈ smallLetters := by decide
    obtain ⟨a, ha⟩ := recognizes_ending "noun" "lowercase word ending in 'o'" ho
    exact ⟨_, a, rfl, ha⟩

end Stock

end SpanishSyntax.Automaton
