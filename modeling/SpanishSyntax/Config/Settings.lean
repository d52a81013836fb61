import SpanishSyntax.Config.Value
import SpanishSyntax.Grammar.Table
import SpanishSyntax.Lexicon.Vocabulary
import SpanishSyntax.Semantic.Concept

/-!
# Settings

Everything that can be configured, with its form as a configuration value: `Settings.toValue`
writes it and `Settings.ofValue?` reads it.  Numbers and truth values are read as texts where a
text is wanted, and numbers and some words as truth values; lists are never made from anything
else.  A record may be given as a list of its entries.  What a file holds besides is ignored.
-/

namespace SpanishSyntax.Config

open Lexicon (CategoryRule Vocabulary)
open Semantic (Concept)

/-- `rules` is rule text -/
structure GrammarSettings where
  start : String
  terminals : List String
  rules : String
  conflictPolicy : ConflictPolicy
  deriving DecidableEq, Repr

structure SemanticSettings where
  stopwords : List String
  concepts : List Concept
  deriving DecidableEq, Repr

structure Settings where
  grammar : GrammarSettings
  lexicon : Vocabulary
  semantic : SemanticSettings
  outputFormat : String
  deriving DecidableEq, Repr

namespace Value

/-! ## reading plain values -/

def asText? : Value → Option String
  | text s => some s
  | bool b => some (if b then "true" else "false")
  | int n => some (toString n)
  | float negative m => some (floatText negative m)
  | nan => some "NaN"
  | _ => none

def truthWord? (s : String) : Option Bool :=
  let w := String.ofList (s.toList.map Char.toLower)
  if w ∈ ["1", "true", "on", "yes"] then some true
  else if w ∈ ["0", "false", "off", "no"] then some false
  else none

def asBool? : Value → Option Bool
  | bool b => some b
  | int n => some (n != 0)
  | float _ m => some (!m.isZero)
  | nan => some true
  | text s => truthWord? s
  | _ => none

def asList? : Value → Option (List Value)
  | list xs => some xs
  | _ => none

def asTexts? (v : Value) : Option (List String) := do (← v.asList?).mapM asText?

/-- a table, or a list that gives the entries in the order of `keys` -/
def asRecord? (keys : List String) : Value → Option Value
  | table fs => some (table fs)
  | list xs => some (table (keys.zip xs))
  | _ => none

/-- a required entry of a table -/
def field? {α : Type} (v : Value) (key : String) (read? : Value → Option α) : Option α := do
  read? (← v.get? key)

/-- an entry that has `fallback` if it is absent -/
def fieldOr? {α : Type} (v : Value) (key : String) (fallback : α) (read? : Value → Option α) :
    Option α :=
  match v.get? key with
  | some w => read? w
  | none => some fallback

/-- absent and nil are the same -/
def asOptional? {α : Type} (read? : Value → Option α) : Value → Option (Option α)
  | nil => some none
  | v => (read? v).map some

def texts (ss : List String) : Value := list (ss.map text)

end Value

open Value

/-! ## the parts -/

namespace GrammarSettings

def toValue (g : GrammarSettings) : Value :=
  table [("start", text g.start), ("terminals", texts g.terminals),
    ("conflict_policy", text g.conflictPolicy.name), ("rules", text g.rules)]

/-- the name of a policy, or a table with that name as its only key -/
def policy? : Value → Option ConflictPolicy
  | text s => ConflictPolicy.ofName? s
  | table [(key, _)] => ConflictPolicy.ofName? key
  | _ => none

def ofValue? (v : Value) : Option GrammarSettings := do
  let v ← v.asRecord? ["start", "terminals", "rules", "conflict_policy"]
  pure ⟨← v.field? "start" asText?, ← v.field? "terminals" asTexts?, ← v.field? "rules" asText?,
    ← v.fieldOr? "conflict_policy" .firstListed policy?⟩

end GrammarSettings

def ruleToValue (r : CategoryRule) : Value :=
  table ([("category", text r.category), ("reserved", bool r.reserved), ("words", texts r.words)] ++
    match r.pattern with
    | some p => [("pattern", text p)]
    | none => [])

def rule? (v : Value) : Option CategoryRule := do
  let v ← v.asRecord? ["category", "words", "pattern", "reserved"]
  pure ⟨← v.field? "category" asText?, ← v.fieldOr? "words" [] asTexts?,
    ← v.fieldOr? "pattern" none (asOptional? asText?), ← v.fieldOr? "reserved" false asBool?⟩

def vocabularyToValue (l : Vocabulary) : Value :=
  table [("letters", text l.letters), ("digits", text l.digits),
    ("punctuation", text l.punctuation), ("default_category", text l.defaultCategory),
    ("number_category", text l.numberCategory),
    ("punctuation_category", text l.punctuationCategory),
    ("rules", list (l.rules.map ruleToValue))]

def rules? (v : Value) : Option (List CategoryRule) := do (← v.asList?).mapM rule?

def vocabulary? (v : Value) : Option Vocabulary := do
  let v ← v.asRecord? ["letters", "digits", "punctuation", "default_category", "number_category",
    "punctuation_category", "rules"]
  pure ⟨← v.field? "letters" asText?, ← v.field? "digits" asText?,
    ← v.field? "punctuation" asText?, ← v.field? "default_category" asText?,
    ← v.field? "number_category" asText?, ← v.field? "punctuation_category" asText?,
    ← v.field? "rules" rules?⟩

def conceptToValue (c : Concept) : Value :=
  table [("name", text c.name), ("synonyms", texts c.synonyms),
    ("associations", texts c.associations), ("description", text c.description)]

def concept? (v : Value) : Option Concept := do
  let v ← v.asRecord? ["name", "synonyms", "associations", "description"]
  pure ⟨← v.field? "name" asText?, ← v.fieldOr? "synonyms" [] asTexts?,
    ← v.fieldOr? "associations" [] asTexts?, ← v.fieldOr? "description" "" asText?⟩

def concepts? (v : Value) : Option (List Concept) := do (← v.asList?).mapM concept?

namespace SemanticSettings

def toValue (s : SemanticSettings) : Value :=
  table [("stopwords", texts s.stopwords), ("concepts", list (s.concepts.map conceptToValue))]

def ofValue? (v : Value) : Option SemanticSettings := do
  let v ← v.asRecord? ["stopwords", "concepts"]
  pure ⟨← v.field? "stopwords" asTexts?, ← v.field? "concepts" concepts?⟩

end SemanticSettings

/-! ## the whole -/

namespace Settings

def toValue (s : Settings) : Value :=
  table [("grammar", s.grammar.toValue), ("lexicon", vocabularyToValue s.lexicon),
    ("semantic", s.semantic.toValue), ("output", table [("format", text s.outputFormat)])]

def outputFormat? (v : Value) : Option String := do
  (← v.asRecord? ["format"]).field? "format" asText?

def ofValue? (v : Value) : Option Settings := do
  pure ⟨← v.field? "grammar" GrammarSettings.ofValue?, ← v.field? "lexicon" vocabulary?,
    ← v.field? "semantic" SemanticSettings.ofValue?,
    ← v.field? "output" outputFormat?⟩

end Settings

end SpanishSyntax.Config
