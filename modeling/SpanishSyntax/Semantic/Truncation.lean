import SpanishSyntax.Semantic.Stem

/-!
# Stems by truncation

A word is kept in UTF-8, and a suffix goes by cutting off as many bytes as it has, which fails if a
character would be cut.  The suffixes of a group are tried from the one with the most bytes on,
equal ones as they are listed, and the first that may go does.  `stemBy` counts characters and looks
for the longest suffix instead.
-/

namespace SpanishSyntax.Semantic

/-- the groups of which only the longest suffix goes -/
structure SuffixGroups where
  diminutives : List String
  verbals : List String
  nominals : List String

namespace Truncation

/-- what stands before the position, unless this is inside a character -/
def truncate? (word : String) (position : String.Pos.Raw) : Option String :=
  if h : position.IsValid word then some (word.sliceTo ⟨position, h⟩).copy else none

/-- the word without its last bytes -/
def cut? (word : String) (bytes : Nat) : Option String := truncate? word ⟨word.utf8ByteSize - bytes⟩

def byFallingSize (suffixes : List String) : List String :=
  suffixes.mergeSort fun s t => t.utf8ByteSize ≤ s.utf8ByteSize

/-- the suffix may go if more than `rest` characters stay -/
def mayGo (rest : Nat) (word suffix : String) : Bool :=
  endsWith word.toList suffix && suffix.length + rest < word.length

def stripFirst? (suffixes : List String) (rest : Nat) (word : String) : Option String :=
  match (byFallingSize suffixes).find? (mayGo rest word) with
  | some suffix => cut? word suffix.utf8ByteSize
  | none => some word

def stripPlural? (word : String) : Option String :=
  if 4 < word.length ∧ ["es", "as", "os"].any (endsWith word.toList) then cut? word 2
  else if 3 < word.length ∧ endsWith word.toList "s" ∧ ¬endsWith word.toList "us" ∧
      ¬endsWith word.toList "is" then
    cut? word 1
  else some word

def stripMente? (word : String) : Option String :=
  if 5 < word.length ∧ endsWith word.toList "mente" then cut? word "mente".utf8ByteSize
  else some word

def stem? (groups : SuffixGroups) (lower : String → String) (word : String) : Option String :=
  let normal := normalizeBy lower word
  if normal.length ≤ 2 then some normal
  else
    (stripPlural? normal).bind fun singular =>
      (stripFirst? groups.diminutives 1 singular).bind fun simple =>
        (stripMente? simple).bind fun manner =>
          (stripFirst? groups.verbals 1 manner).bind fun root =>
            stripFirst? groups.nominals 1 root

end Truncation

end SpanishSyntax.Semantic
