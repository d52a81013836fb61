import SpanishSyntax.Text.Blank
import SpanishSyntax.Total

/-!
# Segmentation

A sentence is cut into lexemes: each of the eight punctuation marks is one; a number is digits,
perhaps with a point and more digits; a word is a run of anything else up to the next blank or
mark.  The longest lexeme wins, and of a number and a word of one length the number.  A lexeme
has its index among the lexemes and its span in bytes.
-/

namespace SpanishSyntax.Lexicon

inductive LexemeKind where
  | number
  | punctuation
  | word
  deriving DecidableEq, Repr

structure Lexeme where
  text : String
  kind : LexemeKind
  index : Nat
  start : Nat
  stop : Nat
  deriving DecidableEq, Repr

def isMark (c : Char) : Bool :=
  c ∈ ['.', ',', ';', ':', '!', '?', '¿', '¡']

def isWordLetter (c : Char) : Bool := !Text.isBlank c && !isMark c

/-- what a number that began with a digit goes on with -/
def numberTail (cs : List Char) : List Char :=
  cs.takeWhile Char.isDigit ++
    match cs.dropWhile Char.isDigit with
    | '.' :: r => if r.takeWhile Char.isDigit = [] then [] else '.' :: r.takeWhile Char.isDigit
    | _ => []

/-- the kind of the lexeme that begins with `c`, and its characters after `c` -/
def lexemeAt (c : Char) (cs : List Char) : LexemeKind × List Char :=
  if isMark c then (.punctuation, [])
  else if c.isDigit ∧ (cs.takeWhile isWordLetter).length ≤ (numberTail cs).length then
    (.number, numberTail cs)
  else (.word, cs.takeWhile isWordLetter)

def byteLength (cs : List Char) : Nat := total Char.utf8Size cs

def segmentFrom (index offset : Nat) : List Char → List Lexeme
  | [] => []
  | c :: cs =>
    if Text.isBlank c then segmentFrom index (offset + c.utf8Size) cs
    else
      let l := lexemeAt c cs
      let stop := offset + byteLength (c :: l.2)
      ⟨String.ofList (c :: l.2), l.1, index, offset, stop⟩ ::
        segmentFrom (index + 1) stop (cs.drop l.2.length)
termination_by cs => cs.length
decreasing_by
  · simp
  · simp only [List.length_drop, List.length_cons]
    omega

def segment (sentence : String) : List Lexeme := segmentFrom 0 0 sentence.toList

theorem segmentFrom_nil (i o : Nat) : segmentFrom i o [] = [] := by
  rw [segmentFrom]

end SpanishSyntax.Lexicon
