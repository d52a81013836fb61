import SpanishSyntax.Text.Blank
import SpanishSyntax.Text.Visible
import SpanishSyntax.Text.WordCharacter
import SpanishSyntax.Grammar.Declaration

/-!
# Rule text

Grammars are written one rule a line:

    # a comment
    S   -> SN SV
    SVc -> SN | Adv AdvC | ε

`->`, `→` and `::=` are arrows.  An alternative that is empty or a lone `ε` is the empty
sequence.  Lines may share a head.  `readRules` reads a text or names the first character that
no rule line can have in its place; `Declaration.ofRuleLines` declares every head a nonterminal.
-/

namespace SpanishSyntax

structure RuleLine where
  line : Nat
  head : String
  alternatives : List (List String)
  deriving DecidableEq, Repr

/-- what stands where a rule line cannot go on -/
inductive Found where
  | char (c : Char)
  | endOfInput
  deriving DecidableEq, Repr

structure Misread where
  line : Nat
  found : Found
  deriving DecidableEq, Repr

namespace Found

def ofRest : List Char → Found
  | [] => .endOfInput
  | c :: _ => .char c

def text : Found → String
  | .char c => Text.visible c
  | .endOfInput => "end of input"

end Found

def Misread.message (m : Misread) : String :=
  s!"grammar notation, line {m.line}: found " ++ m.found.text

namespace RuleLine

/-! ## the parts of a line -/

def isSymbolChar (c : Char) : Bool :=
  Text.isAlphanumeric c || c == '_' || c == '\''

def isGap (c : Char) : Bool := c == ' ' || c == '\t'

/-- symbols, gaps and bars -/
def isBodyChar (c : Char) : Bool := isSymbolChar c || isGap c || c == '|'

def afterArrow : List Char → Except Found (List Char)
  | '→' :: r => .ok r
  | '-' :: '>' :: r => .ok r
  | '-' :: r => .error (Found.ofRest r)
  | ':' :: ':' :: '=' :: r => .ok r
  | ':' :: ':' :: r => .error (Found.ofRest r)
  | ':' :: r => .error (Found.ofRest r)
  | r => .error (Found.ofRest r)

def alternative (cs : List Char) : List String :=
  match (Text.words isGap cs).map String.ofList with
  | ["ε"] => []
  | symbols => symbols

def alternativesOf (body : List Char) : List (List String) :=
  (Text.pieces (· == '|') body).map alternative

/-- head and alternatives of a trimmed line -/
def read (cs : List Char) : Except Found (String × List (List String)) :=
  match cs.takeWhile isSymbolChar, cs.dropWhile isSymbolChar with
  | [], rest => .error (Found.ofRest rest)
  | head, rest =>
    match afterArrow (rest.dropWhile isGap) with
    | .error f => .error f
    | .ok body =>
      match body.dropWhile isBodyChar with
      | [] | '#' :: _ => .ok (String.ofList head, alternativesOf (body.takeWhile isBodyChar))
      | c :: _ => .error (.char c)

/-- blank and comment lines say nothing -/
def isSilent : List Char → Bool
  | [] => true
  | c :: _ => c == '#'

def readLines (line : Nat) : List (List Char) → Except Misread (List RuleLine)
  | [] => .ok []
  | raw :: rest =>
    let cs := Text.trim raw
    if isSilent cs then readLines (line + 1) rest
    else match read cs with
      | .error f => .error ⟨line, f⟩
      | .ok (head, alternatives) =>
        (readLines (line + 1) rest).map (⟨line, head, alternatives⟩ :: ·)

end RuleLine

/-- lines are counted from one -/
def readRules (text : String) : Except Misread (List RuleLine) :=
  RuleLine.readLines 1 (Text.lines text)

namespace Declaration

def itemsOfRuleLine (r : RuleLine) : List Item :=
  r.alternatives.map (.rule r.head)

def ofRuleLines (start : String) (terminals : List String) (rules : List RuleLine) :
    Declaration :=
  ofItems start (terminals.map .terminal ++ rules.map (fun r => .nonterminal r.head) ++
    rules.flatMap itemsOfRuleLine)

end Declaration

namespace Grammar

/-- why a text gives no grammar -/
inductive TextError where
  | misread (m : Misread)
  | invalid (d : Declaration.Defect)
  deriving DecidableEq, Repr

def TextError.message : TextError → String
  | .misread m => m.message
  | .invalid d => d.message

def ofText (start : String) (terminals : List String) (text : String) :
    Except TextError Grammar :=
  match readRules text with
  | .error m => .error (.misread m)
  | .ok rules =>
    match (Declaration.ofRuleLines start terminals rules).build with
    | .error d => .error (.invalid d)
    | .ok g => .ok g

end Grammar

end SpanishSyntax
