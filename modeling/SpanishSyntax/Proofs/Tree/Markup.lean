import SpanishSyntax.Proofs.Grammar.RuleParts
import SpanishSyntax.Proofs.Text.Entity
import SpanishSyntax.Proofs.Tree.Preorder
import SpanishSyntax.Tree.TagWriter

/-!
# Trees read off their tags

The label of a tag ends where the first character comes that no symbol has, and the word in a tag
where the next tag begins.  What stands there tells if it is the end of the same tag or a child.  So
the text of a node, with any text behind it, determines the node and where its text ends
(`TreeNode.plain_of_markup`), and that of its children ends where a tag is indented less.

* `Markup.Nested`              what may follow in a text within the open tags;
* `TagWriter.tree?_eq`         a writer that counts its level writes the same text, and closes no
                               tag that is not open;
* `SyntaxTree.markup_exact`    two trees have the same text if and only if they are alike up to
                               levels and marks of terminals, and the text is nested.
-/

namespace SpanishSyntax

open RuleLine (isSymbolChar IsName)

namespace Markup

def margin (level : Nat) : List Char := List.replicate (2 * level) ' '

/-- behind the name of a tag stands nothing, or a space and no other tag -/
structure Attributes (cs : List Char) : Prop where
  space : ∀ c ∈ cs.head?, c = ' '
  no_angle : Text.NoAngle cs

theorem attributes_nil : Attributes [] := ⟨fun _ hc => (nomatch hc), by decide⟩

/-- texts that close the open tags, innermost first, each with its name and as far to the right as
it was opened, and that go two columns to the right for every tag they open -/
inductive Nested : List String → List Char → Prop
  | done : Nested [] []
  | opening {tags : List String} {tag : String} {attrs rest : List Char} (hname : IsName tag)
      (hattrs : Attributes attrs) (hrest : Nested (tag :: tags) rest) :
      Nested tags
        (margin tags.length ++ '<' :: (tag.toList ++ (attrs ++ '>' :: '\n' :: rest)))
  | closing {tags : List String} {tag : String} {rest : List Char} (hrest : Nested tags rest) :
      Nested (tag :: tags)
        (margin tags.length ++ '<' :: '/' :: (tag.toList ++ '>' :: '\n' :: rest))
  | empty {tags : List String} {tag : String} {rest : List Char} (hname : IsName tag)
      (hrest : Nested tags rest) :
      Nested tags (margin tags.length ++ '<' :: (tag.toList ++ '/' :: '>' :: '\n' :: rest))
  | text {tags : List String} {tag : String} {content rest : List Char} (hname : IsName tag)
      (hcontent : Text.NoAngle content) (hrest : Nested tags rest) :
      Nested tags (margin tags.length ++ '<' :: (tag.toList ++ '>' :: (content ++
        '<' :: '/' :: (tag.toList ++ '>' :: '\n' :: rest))))

/-! ## tags as lists of characters -/

section

variable (level : Nat) (tag : String) (attrs : List (String × String)) (rest : List Char)

theorem toList_opening : (opening level tag attrs).toList ++ rest =
    margin level ++ '<' :: (tag.toList ++ ((attributes attrs).toList ++ '>' :: '\n' :: rest)) := by
  simp only [opening, indent, String.toList_append, String.toList_ofList, List.append_assoc]
  rfl

theorem toList_closing : (closing level tag).toList ++ rest =
    margin level ++ '<' :: '/' :: (tag.toList ++ '>' :: '\n' :: rest) := by
  simp only [closing, indent, String.toList_append, String.toList_ofList, List.append_assoc]
  rfl

theorem toList_emptyTag : (emptyTag level tag).toList ++ rest =
    margin level ++ '<' :: (tag.toList ++ '/' :: '>' :: '\n' :: rest) := by
  simp only [emptyTag, indent, String.toList_append, String.toList_ofList, List.append_assoc]
  rfl

theorem toList_textTag (text : String) : (textTag level tag attrs text).toList ++ rest =
    margin level ++ '<' :: (tag.toList ++ ((attributes attrs).toList ++ '>' ::
      (Text.escapeChars text.toList ++ '<' :: '/' :: (tag.toList ++ '>' :: '\n' :: rest)))) := by
  simp only [textTag, indent, String.toList_append, String.toList_ofList, Text.toList_escape,
    List.append_assoc]
  rfl

theorem toList_around (content : String) : (around level tag attrs content).toList ++ rest =
    (opening level tag attrs).toList ++
      (content.toList ++ ((closing level tag).toList ++ rest)) := by
  simp only [around, String.toList_append, List.append_assoc]

end

end Markup

open Markup

namespace TreeNode

/-- the label can be a tag, and only a node without children has a word -/
structure FitsTag (n : TreeNode) : Prop where
  label : IsName n.label
  word : n.lexeme ≠ none → n.isLeaf = true

instance (n : TreeNode) : Decidable n.FitsTag :=
  decidable_of_iff (IsName n.label ∧ (n.lexeme ≠ none → n.isLeaf = true))
    ⟨fun h => ⟨h.1, h.2⟩, fun h => ⟨h.label, h.word⟩⟩

/-- what stands behind the label, with a text behind it all -/
def behindLabel (level : Nat) (n : TreeNode) (rest : List Char) : List Char :=
  match n.lexeme, n.children with
  | some word, [] => '>' :: (Text.escapeChars word.toList ++
      '<' :: '/' :: (n.label.toList ++ '>' :: '\n' :: rest))
  | none, [] => '/' :: '>' :: '\n' :: rest
  | _, _ :: _ => '>' :: '\n' :: ((markupList (level + 1) n.children).toList ++
      ((closing level n.label).toList ++ rest))

theorem markup_parent (level : Nat) (l : String) (t : Bool) (v : Nat) (w : Option String)
    (c : TreeNode) (cs : List TreeNode) : (⟨l, t, v, w, c :: cs⟩ : TreeNode).markup level =
      around level l [] (markupList (level + 1) (c :: cs)) := by
  cases w <;> rfl

theorem toList_markup (level : Nat) (n : TreeNode) (rest : List Char) :
    (n.markup level).toList ++ rest =
      margin level ++ '<' :: (n.label.toList ++ n.behindLabel level rest) := by
  obtain ⟨l, t, v, w, cs⟩ := n
  cases cs with
  | nil =>
    cases w with
    | none => exact toList_emptyTag level l rest
    | some word => exact toList_textTag level l [] rest word
  | cons c cs =>
    rw [markup_parent, toList_around, toList_opening]
    cases w <;> rfl

theorem toList_markupList_nil (level : Nat) (rest : List Char) :
    (markupList level []).toList ++ rest = rest := by
  rw [markupList, String.toList_empty, List.nil_append]

theorem toList_markupList_cons (level : Nat) (c : TreeNode) (cs : List TreeNode)
    (rest : List Char) : (markupList level (c :: cs)).toList ++ rest =
      (c.markup level).toList ++ ((markupList level cs).toList ++ rest) := by
  rw [markupList, String.toList_append, List.append_assoc]

theorem not_isSymbolChar_slash : isSymbolChar '/' = false := by decide +kernel

theorem behindLabel_head (level : Nat) (n : TreeNode) (rest : List Char) :
    ∀ c ∈ (n.behindLabel level rest).head?, isSymbolChar c = false := by
  have hangle : isSymbolChar '>' = false := by decide +kernel
  unfold behindLabel
  intro c hc
  split at hc
  · obtain rfl := Option.some.inj hc
    exact hangle
  · obtain rfl := Option.some.inj hc
    exact not_isSymbolChar_slash
  · obtain rfl := Option.some.inj hc
    exact hangle

theorem label_of_markup {level : Nat} {n m : TreeNode} {r s : List Char} (hn : n.FitsTag)
    (hm : m.FitsTag) (h : (n.markup level).toList ++ r = (m.markup level).toList ++ s) :
    n.label = m.label ∧ n.behindLabel level r = m.behindLabel level s := by
  rw [toList_markup, toList_markup] at h
  have htag := (List.cons.inj (List.append_cancel_left h)).2
  obtain ⟨hlabel, hbehind⟩ := Text.run_append_inj hn.label.2 hm.label.2
    (behindLabel_head level n r) (behindLabel_head level m s) htag
  exact ⟨String.toList_inj.mp hlabel, hbehind⟩

/-! ## the end of a tag, or a child -/

theorem slash_ne_name {name : String} (h : IsName name) (x y : List Char) :
    '/' :: x ≠ name.toList ++ y := by
  intro heq
  cases hname : name.toList with
  | nil => exact h.1 hname
  | cons c cs =>
    rw [hname] at heq
    have hc := h.2 c (hname ▸ List.mem_cons_self)
    rw [← (List.cons.inj heq).1, not_isSymbolChar_slash] at hc
    cases hc

/-- a word ends where its tag ends, and what stands before a child ends where the child begins -/
theorem text_ne_child {level : Nat} {c : TreeNode} {cs : List TreeNode} (hc : c.FitsTag)
    (word x y : List Char) : Text.escapeChars word ++ '<' :: '/' :: x ≠
      '\n' :: ((markupList level (c :: cs)).toList ++ y) := by
  have hmargin : '<' ∉ '\n' :: margin level := by
    intro hd
    rcases List.mem_cons.mp hd with hd | hd
    · cases hd
    · cases List.eq_of_mem_replicate hd
  intro h
  rw [toList_markupList_cons, toList_markup, ← List.cons_append] at h
  have hbehind := (Text.append_cons_inj (Text.no_angle_escapeChars word).1 hmargin h).2
  exact slash_ne_name hc.label _ _ hbehind

/-- a tag that closes stands further to the left than the children of its node -/
theorem closing_ne_child (level : Nat) (tag : String) (c : TreeNode) (cs : List TreeNode)
    (r x : List Char) : (closing level tag).toList ++ r ≠
      (markupList (level + 1) (c :: cs)).toList ++ x := by
  have hmargin : margin (level + 1) = margin level ++ [' ', ' '] :=
    (List.replicate_append_replicate (n := 2 * level) (m := 2) (a := ' ')).symm
  intro h
  rw [toList_closing, toList_markupList_cons, toList_markup, hmargin, List.append_assoc] at h
  have hchar := (List.cons.inj (List.append_cancel_left h)).1
  revert hchar
  decide

theorem FitsTag.lexeme_eq_none {n : TreeNode} (h : n.FitsTag) (hne : n.children ≠ []) :
    n.lexeme = none := by
  by_contra hw
  exact hne (List.isEmpty_iff.mp (h.word hw))

theorem word_of_text {word word' : String} {x y : List Char}
    (h : Text.escapeChars word.toList ++ '<' :: x = Text.escapeChars word'.toList ++ '<' :: y) :
    word = word' ∧ x = y := by
  obtain ⟨hescaped, hbehind⟩ := Text.append_cons_inj (Text.no_angle_escapeChars word.toList).1
    (Text.no_angle_escapeChars word'.toList).1 h
  exact ⟨String.toList_inj.mp (Text.escapeChars_injective hescaped), hbehind⟩

theorem slash_ne_bracket (x y : List Char) : '/' :: x ≠ '>' :: y := by
  intro h
  cases h

variable {level : Nat} {n m : TreeNode} {r s : List Char}

theorem behindLabel_leaf_inj (hn : n.children = []) (hm : m.children = [])
    (hlabel : n.label = m.label) (h : n.behindLabel level r = m.behindLabel level s) :
    n.lexeme = m.lexeme ∧ r = s := by
  unfold behindLabel at h
  rw [hn, hm, ← hlabel] at h
  cases hw : n.lexeme with
  | none =>
    cases hw' : m.lexeme with
    | none =>
      rw [hw, hw'] at h
      have hends : ['/', '>', '\n'] ++ r = ['/', '>', '\n'] ++ s := h
      exact ⟨rfl, List.append_cancel_left hends⟩
    | some word' =>
      rw [hw, hw'] at h
      exact absurd h (slash_ne_bracket _ _)
  | some word =>
    cases hw' : m.lexeme with
    | none =>
      rw [hw, hw'] at h
      exact absurd h.symm (slash_ne_bracket _ _)
    | some word' =>
      rw [hw, hw'] at h
      obtain ⟨rfl, hbehind⟩ := word_of_text (List.cons.inj h).2
      have hends : ['>', '\n'] ++ r = ['>', '\n'] ++ s :=
        List.append_cancel_left (List.cons.inj hbehind).2
      exact ⟨rfl, List.append_cancel_left hends⟩

theorem behindLabel_parent (level : Nat) (hn : n.FitsTag) (hne : n.children ≠ [])
    (rest : List Char) :
    n.lexeme = none ∧ n.behindLabel level rest =
      '>' :: '\n' :: ((markupList (level + 1) n.children).toList ++
        ((closing level n.label).toList ++ rest)) := by
  obtain ⟨l, t, v, w, cs⟩ := n
  obtain rfl : w = none := hn.lexeme_eq_none hne
  cases cs with
  | nil => exact absurd rfl hne
  | cons c cs => exact ⟨rfl, rfl⟩

theorem behindLabel_leaf_ne_parent (hn : n.children = []) (hm : m.FitsTag)
    (hds : ∀ k ∈ nodesList m.children, k.FitsTag) (hne : m.children ≠ []) :
    n.behindLabel level r ≠ m.behindLabel level s := by
  intro h
  rw [(behindLabel_parent level hm hne s).2, behindLabel, hn] at h
  cases hw : n.lexeme with
  | none =>
    rw [hw] at h
    exact slash_ne_bracket _ _ h
  | some word =>
    rw [hw] at h
    cases hchildren : m.children with
    | nil => exact hne hchildren
    | cons d ds =>
      rw [hchildren] at h hds
      exact text_ne_child (hds d (mem_nodesList_cons d ds)) _ _ _ (List.cons.inj h).2

/-- the tags of the children up to the end of the tag -/
def inner (level : Nat) (n : TreeNode) (rest : List Char) : List Char :=
  (markupList (level + 1) n.children).toList ++ ((closing level n.label).toList ++ rest)

theorem inner_of_behindLabel (hn : n.FitsTag) (hm : m.FitsTag)
    (hcs : ∀ k ∈ nodesList n.children, k.FitsTag) (hds : ∀ k ∈ nodesList m.children, k.FitsTag)
    (hlabel : n.label = m.label) (h : n.behindLabel level r = m.behindLabel level s) :
    n.lexeme = m.lexeme ∧ n.inner level r = m.inner level s := by
  by_cases hleaf : n.children = []
  · by_cases hleaf' : m.children = []
    · obtain ⟨hword, rfl⟩ := behindLabel_leaf_inj hleaf hleaf' hlabel h
      rw [inner, inner, hleaf, hleaf', hlabel]
      exact ⟨hword, rfl⟩
    · exact absurd h (behindLabel_leaf_ne_parent hleaf hm hds hleaf')
  · by_cases hleaf' : m.children = []
    · exact absurd h.symm (behindLabel_leaf_ne_parent hleaf' hn hcs hleaf)
    · obtain ⟨hword, htags⟩ := behindLabel_parent level hn hleaf r
      obtain ⟨hword', htags'⟩ := behindLabel_parent level hm hleaf' s
      rw [htags, htags'] at h
      exact ⟨hword.trans hword'.symm, (List.cons.inj (List.cons.inj h).2).2⟩

/-! ## nodes and children from their text -/

mutual
theorem plain_of_markup : ∀ (n m : TreeNode) (level : Nat) (r s : List Char),
    (∀ k ∈ n.nodes, k.FitsTag) → (∀ k ∈ m.nodes, k.FitsTag) →
    (n.markup level).toList ++ r = (m.markup level).toList ++ s → n.plain = m.plain ∧ r = s
  | ⟨l, t, v, w, cs⟩, ⟨l', t', v', w', ds⟩, level, r, s, hn, hm, h => by
    obtain ⟨hfit, hcs⟩ := List.forall_mem_cons.mp hn
    obtain ⟨hfit', hds⟩ := List.forall_mem_cons.mp hm
    obtain ⟨hlabel, hbehind⟩ := label_of_markup hfit hfit' h
    obtain ⟨hword, hinner⟩ := inner_of_behindLabel hfit hfit' hcs hds hlabel hbehind
    obtain rfl : l = l' := hlabel
    obtain rfl : w = w' := hword
    obtain ⟨hchildren, hrest⟩ := plainList_of_markup cs ds level l r s hcs hds hinner
    exact ⟨congrArg (TreeNode.mk l false 0 w) hchildren, hrest⟩
theorem plainList_of_markup : ∀ (cs ds : List TreeNode) (level : Nat) (tag : String)
    (r s : List Char), (∀ k ∈ nodesList cs, k.FitsTag) → (∀ k ∈ nodesList ds, k.FitsTag) →
    (markupList (level + 1) cs).toList ++ ((closing level tag).toList ++ r) =
      (markupList (level + 1) ds).toList ++ ((closing level tag).toList ++ s) →
    plainList cs = plainList ds ∧ r = s
  | [], [], _, _, _, _, _, _, h => by
    rw [toList_markupList_nil, toList_markupList_nil] at h
    exact ⟨rfl, List.append_cancel_left h⟩
  | [], d :: ds, level, tag, r, _, _, _, h => by
    rw [toList_markupList_nil] at h
    exact absurd h (closing_ne_child level tag d ds r _)
  | c :: cs, [], level, tag, _, s, _, _, h => by
    rw [toList_markupList_nil] at h
    exact absurd h.symm (closing_ne_child level tag c cs s _)
  | c :: cs, d :: ds, level, tag, r, s, hcs, hds, h => by
    obtain ⟨hc, hcs⟩ := List.forall_mem_append.mp hcs
    obtain ⟨hd, hds⟩ := List.forall_mem_append.mp hds
    rw [toList_markupList_cons, toList_markupList_cons] at h
    obtain ⟨hhead, htail⟩ := plain_of_markup c d (level + 1) _ _ hc hd h
    obtain ⟨hchildren, hrest⟩ := plainList_of_markup cs ds level tag r s hcs hds htail
    rw [plainList, plainList, hhead, hchildren]
    exact ⟨rfl, hrest⟩
end

mutual
theorem markup_plain : ∀ (n : TreeNode) (level : Nat), n.plain.markup level = n.markup level
  | ⟨l, _, _, w, cs⟩, level => by
    have hchildren := markupList_plainList cs (level + 1)
    cases cs with
    | nil => cases w <;> rfl
    | cons c cs =>
      rw [markup_parent, ← hchildren]
      exact markup_parent level l false 0 w c.plain (plainList cs)
theorem markupList_plainList : ∀ (cs : List TreeNode) (level : Nat),
    markupList level (plainList cs) = markupList level cs
  | [], _ => rfl
  | c :: cs, level => by
    rw [plainList, markupList, markupList, markup_plain c, markupList_plainList cs]
end

/-! ## nested tags -/

mutual
theorem nested_markup : ∀ (n : TreeNode) (tags : List String) (rest : List Char),
    (∀ k ∈ n.nodes, k.FitsTag) → Nested tags rest →
    Nested tags ((n.markup tags.length).toList ++ rest)
  | ⟨l, t, v, w, cs⟩, tags, rest, hn, hrest => by
    obtain ⟨hfit, hcs⟩ := List.forall_mem_cons.mp hn
    have hclosing : Nested (l :: tags) ((closing tags.length l).toList ++ rest) := by
      rw [toList_closing]
      exact .closing hrest
    have hinner := nested_markupList cs (l :: tags) _ hcs hclosing
    cases cs with
    | nil =>
      rw [toList_markup]
      cases w with
      | none => exact .empty hfit.label hrest
      | some word => exact .text hfit.label (Text.no_angle_escapeChars _) hrest
    | cons c cs =>
      rw [markup_parent, toList_around, toList_opening]
      exact .opening hfit.label attributes_nil hinner
theorem nested_markupList : ∀ (cs : List TreeNode) (tags : List String) (rest : List Char),
    (∀ k ∈ nodesList cs, k.FitsTag) → Nested tags rest →
    Nested tags ((markupList tags.length cs).toList ++ rest)
  | [], _, _, _, hrest => hrest
  | c :: cs, tags, rest, hcs, hrest => by
    obtain ⟨hc, hcs⟩ := List.forall_mem_append.mp hcs
    rw [toList_markupList_cons]
    exact nested_markup c tags _ hc (nested_markupList cs tags rest hcs hrest)
end

end TreeNode

namespace TagWriter

mutual
theorem node?_eq : ∀ (n : TreeNode) (w : TagWriter),
    w.node? n = some ⟨w.output ++ n.markup w.level, w.level⟩
  | ⟨l, _, _, lexeme, cs⟩, w => by
    have hchildren := nodes?_eq cs (w.openTag l [])
    cases cs with
    | nil => cases lexeme <;> rfl
    | cons c cs =>
      rw [TreeNode.markup_parent, around, ← String.append_assoc, ← String.append_assoc]
      cases lexeme <;> exact congrArg (·.bind fun w' => w'.closeTag? l) hchildren
theorem nodes?_eq : ∀ (cs : List TreeNode) (w : TagWriter),
    nodes? w cs = some ⟨w.output ++ TreeNode.markupList w.level cs, w.level⟩
  | [], w => by
    rw [nodes?, TreeNode.markupList, String.append_empty]
  | c :: cs, w => by
    rw [nodes?, node?_eq c, Option.bind_some, nodes?_eq cs, TreeNode.markupList,
      String.append_assoc]
end

theorem tree?_eq (w : TagWriter) (tag : String) (t : SyntaxTree) :
    w.tree? tag t = some ⟨w.output ++ t.markup w.level tag, w.level⟩ := by
  rw [tree?, node?_eq, Option.bind_some, SyntaxTree.markup, around, ← String.append_assoc,
    ← String.append_assoc]
  rfl

end TagWriter

/-! ## trees -/

namespace SyntaxTree

/-- what stands behind the name of the tag around a tree -/
def mark (t : SyntaxTree) : List Char :=
  (attributes (if t.approximate then [("approximate", "true")] else [])).toList

theorem toList_markup (t : SyntaxTree) (tag : String) (rest : List Char) :
    (t.markup 0 tag).toList ++ rest = '<' :: (tag.toList ++ (t.mark ++ '>' :: '\n' ::
      ((t.root.markup 1).toList ++ ((closing 0 tag).toList ++ rest)))) := by
  rw [markup, toList_around, toList_opening]
  rfl

theorem attributes_mark (t : SyntaxTree) : Attributes t.mark := by
  unfold mark
  cases t.approximate with
  | false => exact attributes_nil
  | true => exact ⟨fun _ hc => (Option.some.inj hc).symm, by decide⟩

theorem isName_tree : IsName "tree" := by decide +kernel

theorem approximate_of_mark {t u : SyntaxTree} {x y : List Char}
    (h : t.mark ++ '>' :: x = u.mark ++ '>' :: y) : t.approximate = u.approximate ∧ x = y := by
  have hmarks : ∀ a b : Bool,
      (attributes (if a then [("approximate", "true")] else [])).toList =
        (attributes (if b then [("approximate", "true")] else [])).toList → a = b := by decide
  obtain ⟨hmark, hbehind⟩ :=
    Text.append_cons_inj t.attributes_mark.no_angle.2 u.attributes_mark.no_angle.2 h
  exact ⟨hmarks _ _ hmark, hbehind⟩

/-- **A tree can be read off its tags**, up to levels and marks of terminals, and these are nested
and never closed at level zero. -/
theorem markup_exact (t u : SyntaxTree) (ht : ∀ n ∈ t.root.nodes, n.FitsTag)
    (hu : ∀ n ∈ u.root.nodes, n.FitsTag) :
    (t.markup 0 "tree" = u.markup 0 "tree" ↔
        t.approximate = u.approximate ∧ t.root.plain = u.root.plain) ∧
      Nested [] (t.markup 0 "tree").toList ∧
      TagWriter.start.tree? "tree" t = some ⟨t.markup 0 "tree", 0⟩ := by
  refine ⟨⟨?_, ?_⟩, ?_, ?_⟩
  · intro h
    have htext := congrArg (fun text => text.toList ++ []) h
    rw [toList_markup, toList_markup] at htext
    obtain ⟨happroximate, hroot⟩ :=
      approximate_of_mark (List.append_cancel_left (List.cons.inj htext).2)
    exact ⟨happroximate, (t.root.plain_of_markup u.root 1 _ _ ht hu (List.cons.inj hroot).2).1⟩
  · rintro ⟨happroximate, hroot⟩
    rw [markup, markup, happroximate, ← t.root.markup_plain, hroot, u.root.markup_plain]
  · have hclosing : Nested ["tree"] ((closing 0 "tree").toList ++ []) := by
      rw [toList_closing]
      exact .closing .done
    have hinner := t.root.nested_markup ["tree"] _ ht hclosing
    have hnested := Nested.opening isName_tree t.attributes_mark hinner
    rw [← List.append_nil (t.markup 0 "tree").toList, toList_markup]
    exact hnested
  · have hwritten := TagWriter.start.tree?_eq "tree" t
    rwa [TagWriter.start, String.empty_append] at hwritten

/-- a guess in which the word is a tag of its own, and the same with other levels and marks -/
def tagged : SyntaxTree where
  root := ⟨"S", false, 0, none,
    [⟨"art", true, 1, some "</art>\n  <S/>", []⟩, ⟨"AdjOpt", false, 1, none, []⟩]⟩
  derivation := ["1. S"]
  approximate := true

def retagged : SyntaxTree where
  root := ⟨"S", true, 3, none,
    [⟨"art", false, 0, some "</art>\n  <S/>", []⟩, ⟨"AdjOpt", true, 0, none, []⟩]⟩
  derivation := []
  approximate := true

theorem markup_tagged :
    (∀ n ∈ tagged.root.nodes, n.FitsTag) ∧ (∀ n ∈ retagged.root.nodes, n.FitsTag) ∧
      tagged.markup 0 "tree" = retagged.markup 0 "tree" ∧ tagged.root.plain = retagged.root.plain ∧
      Nested [] (tagged.markup 0 "tree").toList ∧
      TagWriter.start.tree? "tree" tagged = some ⟨tagged.markup 0 "tree", 0⟩ := by
  have hfits : ∀ n ∈ tagged.root.nodes, n.FitsTag := by decide +kernel
  have hfits' : ∀ n ∈ retagged.root.nodes, n.FitsTag := by decide +kernel
  have htext : tagged.markup 0 "tree" = retagged.markup 0 "tree" := by decide +kernel
  obtain ⟨halike, hnested, hwritten⟩ := markup_exact tagged retagged hfits hfits'
  exact ⟨hfits, hfits', htext, (halike.mp htext).2, hnested, hwritten⟩

end SyntaxTree

end SpanishSyntax
