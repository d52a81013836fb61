import SpanishSyntax.Automaton.Blueprint
import SpanishSyntax.Automaton.Run
import SpanishSyntax.Decimal.Double
import SpanishSyntax.Lexicon.Regexes
import SpanishSyntax.Lexicon.Segment
import SpanishSyntax.Lexicon.Vocabulary
import SpanishSyntax.Text.Digit
import SpanishSyntax.Text.Lowercase
import SpanishSyntax.Text.Numeral
import SpanishSyntax.Text.Pieces

/-!
# Classification of words

Numbers and punctuation marks are recognised by their form.  Any other word takes the category
of the first rule that fits it in lower case, or the default category.  Whatever its category, a
word is valid when the alphabet automaton accepts it, and otherwise its first character outside
the alphabet is reported.

Patterns are compiled by the library of regular expressions that the classifier is made with.
-/

namespace SpanishSyntax.Lexicon

inductive LexicalType where
  | identifier
  | int
  | float
  | punctuation
  deriving DecidableEq, Repr

/-- the tag in a tokenization line -/
def LexicalType.tag : LexicalType → String
  | .identifier => "id"
  | .int => "int"
  | .float => "float"
  | .punctuation => "punct"

structure Token where
  lexeme : String
  position : Nat
  type : LexicalType
  category : String
  valid : Bool
  errorChar : Option Char
  constant : Option Double
  reserved : Bool
  deriving DecidableEq, Repr

/-! ## the form of a word -/

/-- digits of any script, perhaps with a point and more digits -/
def numberForm (word : List Char) : Option LexicalType :=
  match word.takeWhile Text.isDecimalDigit, word.dropWhile Text.isDecimalDigit with
  | _ :: _, [] => some .int
  | _ :: _, '.' :: r => if r ≠ [] ∧ r.all Text.isDecimalDigit then some .float else none
  | _, _ => none

def form (word : List Char) : LexicalType :=
  match numberForm word with
  | some t => t
  | none =>
    match word with
    | [c] => if isMark c then .punctuation else .identifier
    | _ => .identifier

/-- the value of a number in ASCII digits; other digits have none -/
def constantOf (word : List Char) : Option Double :=
  let whole := word.takeWhile Char.isDigit
  let fraction := (word.dropWhile Char.isDigit).drop 1
  if word.all fun c => c.isDigit || c == '.' then
    some (Double.ofDecimal (Text.numeral 10 (whole ++ fraction)) (-(fraction.length : Int)))
  else none

/-! ## rules -/

/-- a rule with its words in lower case and the test its pattern is compiled to -/
structure WordRule where
  category : String
  words : List String
  pattern : Option (String → Bool)
  reserved : Bool

/-- does the rule fit a word in lower case -/
def WordRule.fits (r : WordRule) (word : String) : Bool :=
  word ∈ r.words || match r.pattern with
    | some test => test word
    | none => false

inductive Fault where
  | alphabet (d : Automaton.Defect)
  | pattern (category : String)
  deriving DecidableEq, Repr

def Fault.message : Fault → String
  | .alphabet d => d.message
  | .pattern category => s!"invalid regular expression in lexicon rule '{category}'"

def CategoryRule.prepare (regexes : Regexes) (r : CategoryRule) : Except Fault WordRule :=
  match r.pattern with
  | none => .ok ⟨r.category, r.words.map Text.lowercase, none, r.reserved⟩
  | some source =>
    match regexes.compile? (Regexes.wholeWord source) with
    | some test => .ok ⟨r.category, r.words.map Text.lowercase, some test, r.reserved⟩
    | none => .error (.pattern r.category)

structure Classifier where
  rules : List WordRule
  alphabet : Automaton
  defaultCategory : String
  numberCategory : String
  punctuationCategory : String

/-- accepts any text over the symbols but the empty one -/
def alphabetBlueprint (symbols : List Char) : Automaton.Blueprint :=
  .ofClauses "alphabet" <|
    [.description "letters with Spanish diacritics, digits and punctuation", .symbols symbols,
      .state "q0" false, .state "q1" true, .initial "q0"] ++
    Automaton.Blueprint.fan "q0" symbols "q1" ++ Automaton.Blueprint.fan "q1" symbols "q1"

def prepareAll (regexes : Regexes) : List CategoryRule → Except Fault (List WordRule)
  | [] => .ok []
  | r :: rs =>
    match r.prepare regexes with
    | .error f => .error f
    | .ok w => (prepareAll regexes rs).map (w :: ·)

def Vocabulary.classifier (regexes : Regexes) (v : Vocabulary) : Except Fault Classifier :=
  match (alphabetBlueprint v.symbols).build with
  | .error d => .error (.alphabet d)
  | .ok a => (prepareAll regexes v.rules).map fun rules =>
    ⟨rules, a, v.defaultCategory, v.numberCategory, v.punctuationCategory⟩

namespace Classifier

/-- category and reserved mark of a word that is no number and no punctuation mark -/
def categoryOf (c : Classifier) (word : String) : String × Bool :=
  match c.rules.find? (·.fits (Text.lowercase word)) with
  | some r => (r.category, r.reserved)
  | none => (c.defaultCategory, false)

def classify (c : Classifier) (word : String) (position : Nat) : Token :=
  let run := c.alphabet.simulate word
  let type := form word.toList
  let kind := match type with
    | .identifier => c.categoryOf word
    | .int | .float => (c.numberCategory, false)
    | .punctuation => (c.punctuationCategory, false)
  { lexeme := word
    position := position
    type := type
    category := kind.1
    valid := run.accepted
    errorChar := run.halt.bind (·.symbol?)
    constant := match type with
      | .int | .float => constantOf word.toList
      | _ => none
    reserved := kind.2 }

def tokenize (c : Classifier) (sentence : String) : List Token :=
  (segment sentence).map fun l => c.classify l.text l.index

end Classifier

/-- `id id int .`, punctuation showing itself -/
def tokenization (ts : List Token) : String :=
  Text.joined " " (ts.map fun t => match t.type with
    | .punctuation => t.lexeme
    | type => type.tag)

def firstInvalid (ts : List Token) : Option Token := ts.find? (!·.valid)

end SpanishSyntax.Lexicon
