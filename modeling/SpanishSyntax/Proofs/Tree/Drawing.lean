import Mathlib.Data.List.Forall2
import SpanishSyntax.Proofs.Grammar.RuleParts
import SpanishSyntax.Proofs.Text.Pieces
import SpanishSyntax.Proofs.Tree.Preorder
import SpanishSyntax.Tree.Drawing

/-!
# Trees read off their drawing

The strokes in front of a label are four columns for each level, and only the last four are a
connector, so a line tells at which depth its node stands (`strokes_append_inj`).  The label ends
where the first character comes that no symbol has, and behind it there is nothing but the word in
quotes.  Lines in preorder that tell depth, label and word determine the tree.

* `Drawing.Row`                what the line of a node is;
* `SyntaxTree.drawn_exact`     two trees have the same drawing if and only if they are alike up to
                               levels and marks of terminals, and a drawing has one such line for
                               each node, in preorder.
-/

namespace SpanishSyntax

open RuleLine (isSymbolChar IsName)

namespace Drawing

/-! ## strokes -/

/-- below a node; the stroke goes on if a sibling follows it -/
def column (last : Bool) : List Char := (if last then "    " else "│   ").toList

def connector (last : Bool) : List Char := (if last then "└── " else "├── ").toList

/-- the columns below the nodes above, and the connector of the node itself -/
def strokes (above : List Bool) (last : Bool) : List Char :=
  above.flatMap column ++ connector last

theorem length_column (last : Bool) : (column last).length = 4 := by
  cases last <;> rfl

theorem length_connector (last : Bool) : (connector last).length = 4 := by
  cases last <;> rfl

theorem connector_ne_column : ∀ last last' : Bool, connector last ≠ column last' := by decide

theorem strokes_cons (last' : Bool) (above : List Bool) (last : Bool) :
    strokes (last' :: above) last = column last' ++ strokes above last := by
  rw [strokes, List.flatMap_cons, List.append_assoc, strokes]

theorem length_strokes (above : List Bool) (last : Bool) :
    (strokes above last).length = 4 * (above.length + 1) := by
  induction above with
  | nil => exact length_connector last
  | cons last' above ih =>
    rw [strokes_cons, List.length_append, length_column, ih, List.length_cons]
    omega

theorem strokes_append_inj {above above' : List Bool} {last last' : Bool} {x y : List Char}
    (h : strokes above last ++ x = strokes above' last' ++ y) :
    above.length = above'.length ∧ x = y := by
  induction above generalizing above' with
  | nil =>
    cases above' with
    | nil =>
      have hlength : (connector last).length = (connector last').length := by
        rw [length_connector, length_connector]
      exact ⟨rfl, (List.append_inj h hlength).2⟩
    | cons f above' =>
      rw [strokes_cons, List.append_assoc] at h
      have hlength : (connector last).length = (column f).length := by
        rw [length_connector, length_column]
      exact absurd (List.append_inj h hlength).1 (connector_ne_column last f)
  | cons f above ih =>
    cases above' with
    | nil =>
      rw [strokes_cons, List.append_assoc] at h
      have hlength : (column f).length = (connector last').length := by
        rw [length_connector, length_column]
      exact absurd (List.append_inj h hlength).1.symm (connector_ne_column last' f)
    | cons g above' =>
      rw [strokes_cons, strokes_cons, List.append_assoc, List.append_assoc] at h
      have hlength : (column f).length = (column g).length := by
        rw [length_column, length_column]
      obtain ⟨habove, hbehind⟩ := ih (List.append_inj h hlength).2
      exact ⟨congrArg Nat.succ habove, hbehind⟩

theorem newline_not_mem_strokes (above : List Bool) (last : Bool) :
    '\n' ∉ strokes above last := by
  have hcolumn : ∀ last, '\n' ∉ column last := by decide
  have hconnector : ∀ last, '\n' ∉ connector last := by decide
  rw [strokes, List.mem_append, List.mem_flatMap]
  rintro (⟨f, _, hc⟩ | hc)
  · exact hcolumn f hc
  · exact hconnector last hc

/-! ## the line of a node -/

/-- the line of a node below the root -/
def Below (e : Nat × TreeNode) (line : String) : Prop :=
  ∃ above last, (strokes above last).length = 4 * e.1 ∧
    line.toList = strokes above last ++ e.2.displayLabel.toList

/-- the line of a node at its depth, with a note behind the root -/
structure Row (note : List Char) (e : Nat × TreeNode) (line : String) : Prop where
  root : e.1 = 0 → line.toList = e.2.displayLabel.toList ++ note
  below : 0 < e.1 → Below e line

theorem Below.pos {e : Nat × TreeNode} {line : String} (h : Below e line) : 0 < e.1 := by
  obtain ⟨above, last, hlength, _⟩ := h
  rw [length_strokes] at hlength
  omega

theorem Below.row {e : Nat × TreeNode} {line : String} (h : Below e line) (note : List Char) :
    Row note e line :=
  ⟨fun hroot => absurd hroot (Nat.ne_of_gt h.pos), fun _ => h⟩

end Drawing

open Drawing

namespace TreeNode

/-- the label can be told from what stands behind it, and the word fits on the line -/
structure FitsLine (n : TreeNode) : Prop where
  label : IsName n.label
  word : ∀ w ∈ n.lexeme, '\n' ∉ w.toList

instance (n : TreeNode) : Decidable n.FitsLine :=
  decidable_of_iff (IsName n.label ∧ ∀ w ∈ n.lexeme, '\n' ∉ w.toList)
    ⟨fun h => ⟨h.1, h.2⟩, fun h => ⟨h.label, h.word⟩⟩

/-- a word in quotes, behind a space -/
def quoted : Option String → List Char
  | none => []
  | some w => ' ' :: '"' :: (w.toList ++ ['"'])

theorem toList_displayLabel (n : TreeNode) :
    n.displayLabel.toList = n.label.toList ++ quoted n.lexeme := by
  obtain ⟨l, t, v, w, cs⟩ := n
  cases w with
  | none => exact (List.append_nil l.toList).symm
  | some w =>
    simp only [displayLabel, String.toList_append, List.append_assoc]
    rfl

theorem not_isSymbolChar_space : isSymbolChar ' ' = false :=
  RuleLine.not_isSymbolChar_of_isGap (by rfl)

theorem quoted_head (w : Option String) : ∀ c ∈ (quoted w).head?, isSymbolChar c = false := by
  intro c hc
  cases w with
  | none => cases hc
  | some w =>
    obtain rfl := Option.some.inj hc
    exact not_isSymbolChar_space

theorem quoted_injective {w w' : Option String} (h : quoted w = quoted w') : w = w' := by
  cases w with
  | none =>
    cases w' with
    | none => rfl
    | some w' => cases h
  | some w =>
    cases w' with
    | none => cases h
    | some w' =>
      have hword := List.append_cancel_right (List.cons.inj (List.cons.inj h).2).2
      rw [String.toList_inj.mp hword]

theorem caption_of_displayLabel {n m : TreeNode} (hn : n.FitsLine) (hm : m.FitsLine)
    (h : n.displayLabel.toList = m.displayLabel.toList) : n.caption = m.caption := by
  rw [toList_displayLabel, toList_displayLabel] at h
  obtain ⟨hlabel, hword⟩ :=
    Text.run_append_inj hn.label.2 hm.label.2 (quoted_head _) (quoted_head _) h
  rw [caption, caption, String.toList_inj.mp hlabel, quoted_injective hword]

/-! ## lines in preorder -/

theorem caption_of_below {e e' : Nat × TreeNode} {line : String} (hn : e.2.FitsLine)
    (hm : e'.2.FitsLine) (h : Below e line) (h' : Below e' line) :
    (e.1, e.2.caption) = (e'.1, e'.2.caption) := by
  obtain ⟨above, last, hlength, hline⟩ := h
  obtain ⟨above', last', hlength', hline'⟩ := h'
  rw [hline] at hline'
  obtain ⟨habove, hlabel⟩ := strokes_append_inj hline'
  have hdepth : e.1 = e'.1 := by
    rw [length_strokes] at hlength hlength'
    omega
  rw [hdepth, caption_of_displayLabel hn hm hlabel]

theorem captions_of_below {es fs : List (Nat × TreeNode)} {lines : List String}
    (hes : ∀ e ∈ es, e.2.FitsLine) (hfs : ∀ f ∈ fs, f.2.FitsLine)
    (h : List.Forall₂ Below es lines) (h' : List.Forall₂ Below fs lines) :
    captions es = captions fs := by
  induction h generalizing fs with
  | nil =>
    cases h'
    rfl
  | cons hline _ ih =>
    cases h' with
    | cons hline' hlines' =>
      obtain ⟨he, hes⟩ := List.forall_mem_cons.mp hes
      obtain ⟨hf, hfs⟩ := List.forall_mem_cons.mp hfs
      have hhead := caption_of_below he hf hline hline'
      exact congrArg₂ List.cons hhead (ih hes hfs hlines')

mutual
theorem below_drawing : ∀ (n : TreeNode) (above : List Bool) (margin : String) (last : Bool)
    (depth : Nat), margin.toList = above.flatMap column → above.length + 1 = depth →
    List.Forall₂ Below (n.preorder depth) (n.drawing margin last)
  | ⟨l, t, v, w, cs⟩, above, margin, last, depth, hmargin, hdepth => by
    refine .cons ⟨above, last, ?_, ?_⟩ ?_
    · rw [length_strokes, hdepth]
    · simp only [String.toList_append, hmargin]
      rfl
    · refine below_drawingList cs (above ++ [last]) _ (depth + 1) ?_ ?_
      · simp only [String.toList_append, hmargin, List.flatMap_append, List.flatMap_singleton]
        rfl
      · rw [List.length_append, List.length_singleton, hdepth]
theorem below_drawingList : ∀ (cs : List TreeNode) (above : List Bool) (margin : String)
    (depth : Nat), margin.toList = above.flatMap column → above.length + 1 = depth →
    List.Forall₂ Below (preorderList depth cs) (drawingList margin cs)
  | [], _, _, _, _, _ => .nil
  | c :: cs, above, margin, depth, hmargin, hdepth => by
    rw [preorderList, drawingList]
    exact List.rel_append (below_drawing c above margin cs.isEmpty depth hmargin hdepth)
      (below_drawingList cs above margin depth hmargin hdepth)
end

/-! ## one line for each node -/

theorem FitsLine.newline_not_mem {n : TreeNode} (h : n.FitsLine) :
    '\n' ∉ n.displayLabel.toList := by
  rw [toList_displayLabel, List.mem_append]
  rintro (hc | hc)
  · have hblank := RuleLine.not_isBlank_of_isSymbolChar (h.label.2 _ hc)
    revert hblank
    decide
  · cases hw : n.lexeme with
    | none =>
      rw [hw] at hc
      cases hc
    | some w =>
      rw [hw] at hc
      have hquoted : '\n' ∈ w.toList := by simpa [quoted] using hc
      exact h.word w hw hquoted

theorem newline_not_mem_of_below {es : List (Nat × TreeNode)} {lines : List String}
    (hes : ∀ e ∈ es, e.2.FitsLine) (h : List.Forall₂ Below es lines) :
    ∀ line ∈ lines, '\n' ∉ line.toList := by
  induction h with
  | nil => exact fun _ hline => nomatch hline
  | cons hline _ ih =>
    obtain ⟨he, hes⟩ := List.forall_mem_cons.mp hes
    refine List.forall_mem_cons.mpr ⟨?_, ih hes⟩
    obtain ⟨above, last, _, htext⟩ := hline
    rw [htext, List.mem_append]
    rintro (hc | hc)
    · exact newline_not_mem_strokes above last hc
    · exact he.newline_not_mem hc

theorem isEmpty_plainList (cs : List TreeNode) : (plainList cs).isEmpty = cs.isEmpty := by
  cases cs <;> rfl

theorem displayLabel_plain (n : TreeNode) : n.plain.displayLabel = n.displayLabel := by
  obtain ⟨l, t, v, w, cs⟩ := n
  cases w <;> rfl

mutual
theorem drawing_plain : ∀ (n : TreeNode) (margin : String) (last : Bool),
    n.plain.drawing margin last = n.drawing margin last
  | ⟨l, t, v, w, cs⟩, margin, last => by
    have hlabel := displayLabel_plain ⟨l, t, v, w, cs⟩
    rw [plain] at hlabel
    rw [plain, drawing, drawing, drawingList_plainList cs, hlabel]
theorem drawingList_plainList : ∀ (cs : List TreeNode) (margin : String),
    drawingList margin (plainList cs) = drawingList margin cs
  | [], _ => rfl
  | c :: cs, margin => by
    rw [plainList, drawingList, drawingList, isEmpty_plainList, drawing_plain c,
      drawingList_plainList cs]
end

end TreeNode

namespace SyntaxTree

/-- what stands behind the label of the root -/
def note (t : SyntaxTree) : List Char := (if t.approximate then " (approximate)" else "").toList

theorem note_head (t : SyntaxTree) : ∀ c ∈ t.note.head?, isSymbolChar c = false := by
  unfold note
  cases t.approximate with
  | false => exact fun _ hc => nomatch hc
  | true =>
    intro c hc
    obtain rfl := Option.some.inj hc
    exact TreeNode.not_isSymbolChar_space

theorem approximate_of_note {t u : SyntaxTree} (h : t.note = u.note) :
    t.approximate = u.approximate := by
  have hnotes : ∀ a b : Bool, (if a then " (approximate)" else "").toList =
      (if b then " (approximate)" else "").toList → a = b := by decide
  exact hnotes _ _ h

/-- the first line, when the root has no word -/
theorem toList_rootLine {t : SyntaxTree} (h : t.root.lexeme = none) :
    (t.root.displayLabel ++ if t.approximate then " (approximate)" else "").toList =
      t.root.label.toList ++ t.note := by
  rw [String.toList_append, TreeNode.toList_displayLabel, h, TreeNode.quoted, List.append_nil, note]

theorem rows_drawing (t : SyntaxTree) :
    List.Forall₂ (Row t.note) (t.root.preorder 0) t.drawing := by
  have hbelow := TreeNode.below_drawingList t.root.children [] "" 1 rfl rfl
  rw [TreeNode.preorder_eq, drawing]
  refine .cons ⟨fun _ => ?_, fun hpos => absurd hpos (Nat.lt_irrefl 0)⟩ ?_
  · rw [String.toList_append]
    rfl
  · exact hbelow.imp fun _ _ hline => hline.row t.note

variable {t u : SyntaxTree}

theorem fitsLine_below (h : ∀ n ∈ t.root.nodes, n.FitsLine) :
    ∀ e ∈ TreeNode.preorderList 1 t.root.children, e.2.FitsLine := by
  rw [TreeNode.nodes_eq] at h
  intro e he
  exact (List.forall_mem_cons.mp h).2 e.2 (TreeNode.mem_nodesList_of_mem_preorderList he)

theorem newline_not_mem_drawing (h : ∀ n ∈ t.root.nodes, n.FitsLine) :
    ∀ line ∈ t.drawing, '\n' ∉ line.toList := by
  have hroot : '\n' ∉ t.root.displayLabel.toList := (h _ t.root.mem_nodes_self).newline_not_mem
  have hnote : ∀ a : Bool, '\n' ∉ (if a then " (approximate)" else "").toList := by decide
  have hbelow := TreeNode.below_drawingList t.root.children [] "" 1 rfl rfl
  refine List.forall_mem_cons.mpr
    ⟨?_, TreeNode.newline_not_mem_of_below (fitsLine_below h) hbelow⟩
  rw [String.toList_append, List.mem_append]
  rintro (hc | hc)
  · exact hroot hc
  · exact hnote t.approximate hc

theorem drawing_of_drawn (ht : ∀ n ∈ t.root.nodes, n.FitsLine)
    (hu : ∀ n ∈ u.root.nodes, n.FitsLine) (h : t.drawn = u.drawn) : t.drawing = u.drawing := by
  have hlines := congrArg Text.lines h
  rw [drawn, drawn, Text.lines_unlines (newline_not_mem_drawing ht),
    Text.lines_unlines (newline_not_mem_drawing hu)] at hlines
  exact (List.map_inj_right fun _ _ => String.toList_inj.mp).mp (List.append_cancel_right hlines)

theorem plain_of_drawing (ht : ∀ n ∈ t.root.nodes, n.FitsLine)
    (hu : ∀ n ∈ u.root.nodes, n.FitsLine) (htroot : t.root.lexeme = none)
    (huroot : u.root.lexeme = none) (h : t.drawing = u.drawing) :
    t.approximate = u.approximate ∧ t.root.plain = u.root.plain := by
  rw [drawing, drawing] at h
  obtain ⟨hfirst, hrest⟩ := List.cons.inj h
  -- the label of the root ends where the note begins
  rw [← String.toList_inj, toList_rootLine htroot, toList_rootLine huroot] at hfirst
  obtain ⟨hlabel, hnote⟩ := Text.run_append_inj (ht _ t.root.mem_nodes_self).label.2
    (hu _ u.root.mem_nodes_self).label.2 t.note_head u.note_head hfirst
  have htbelow := TreeNode.below_drawingList t.root.children [] "" 1 rfl rfl
  have hubelow := TreeNode.below_drawingList u.root.children [] "" 1 rfl rfl
  rw [← hrest] at hubelow
  have hcaptions :=
    TreeNode.captions_of_below (fitsLine_below ht) (fitsLine_below hu) htbelow hubelow
  refine ⟨approximate_of_note hnote, ?_⟩
  rw [TreeNode.plain_eq, TreeNode.plain_eq, String.toList_inj.mp hlabel, htroot, huroot,
    TreeNode.plainList_eq_of_captions hcaptions]

theorem drawn_of_plain (happroximate : t.approximate = u.approximate)
    (hroot : t.root.plain = u.root.plain) : t.drawn = u.drawn := by
  have hplain : ∀ s : SyntaxTree, s.drawing =
      (s.root.plain.displayLabel ++ if s.approximate then " (approximate)" else "") ::
        TreeNode.drawingList "" s.root.plain.children := by
    intro s
    rw [TreeNode.displayLabel_plain, TreeNode.plain_eq, TreeNode.drawingList_plainList, drawing]
  rw [drawn, drawn, hplain t, hplain u, happroximate, hroot]

/-- **A tree can be read off its drawing**, up to levels and marks of terminals, and the drawing has
one line for each node, in preorder, with four columns of strokes for each level. -/
theorem drawn_exact (t u : SyntaxTree) (ht : ∀ n ∈ t.root.nodes, n.FitsLine)
    (hu : ∀ n ∈ u.root.nodes, n.FitsLine) (htroot : t.root.lexeme = none)
    (huroot : u.root.lexeme = none) :
    (t.drawn = u.drawn ↔ t.approximate = u.approximate ∧ t.root.plain = u.root.plain) ∧
      Text.lines t.drawn = t.drawing.map String.toList ++ [[]] ∧
      t.drawing.length = t.nodeCount ∧
      List.Forall₂ (Row t.note) (t.root.preorder 0) t.drawing := by
  refine ⟨⟨fun h => ?_, fun h => drawn_of_plain h.1 h.2⟩,
    Text.lines_unlines (newline_not_mem_drawing ht), ?_, t.rows_drawing⟩
  · exact plain_of_drawing ht hu htroot huroot (drawing_of_drawn ht hu h)
  · rw [← t.rows_drawing.length_eq, TreeNode.length_preorder, nodeCount]

/-- a guess with strokes and quotes in a word -/
def drawnGuess : SyntaxTree where
  root := ⟨"S", false, 0, none,
    [⟨"SN", false, 1, none, [⟨"art", true, 2, some "el\" │   └── x", []⟩]⟩,
      ⟨"SV", false, 1, none, []⟩]⟩
  derivation := ["1. S"]
  approximate := true

/-- the same with other levels and marks -/
def redrawnGuess : SyntaxTree where
  root := ⟨"S", true, 2, none,
    [⟨"SN", true, 0, none, [⟨"art", false, 0, some "el\" │   └── x", []⟩]⟩,
      ⟨"SV", true, 0, none, []⟩]⟩
  derivation := []
  approximate := true

theorem drawn_guess :
    (∀ n ∈ drawnGuess.root.nodes, n.FitsLine) ∧ (∀ n ∈ redrawnGuess.root.nodes, n.FitsLine) ∧
      drawnGuess.drawing =
        ["S (approximate)", "├── SN", "│   └── art \"el\" │   └── x\"", "└── SV"] ∧
      drawnGuess.drawn = redrawnGuess.drawn ∧
      drawnGuess.root.plain = redrawnGuess.root.plain ∧
      drawnGuess.drawing.length = drawnGuess.nodeCount := by
  have hfits : ∀ n ∈ drawnGuess.root.nodes, n.FitsLine := by decide +kernel
  have hfits' : ∀ n ∈ redrawnGuess.root.nodes, n.FitsLine := by decide +kernel
  have htext : drawnGuess.drawn = redrawnGuess.drawn := by decide +kernel
  obtain ⟨halike, _, hlength, _⟩ := drawn_exact drawnGuess redrawnGuess hfits hfits' rfl rfl
  exact ⟨hfits, hfits', by decide, htext, (halike.mp htext).2, hlength⟩

end SyntaxTree

end SpanishSyntax
