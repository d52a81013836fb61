import SpanishSyntax.Automaton.Blueprint

/-!
# Stock automata

* `identifier`  a letter or `_`, then letters, digits or `_`; the Spanish accented letters count
* `verb`        two or more small ASCII letters, the last one `r`
* `noun`        two or more small ASCII letters, the last one `o`
-/

namespace SpanishSyntax.Automaton.Stock

open Blueprint

def smallLetters : List Char :=
  ['a', 'b', 'c', 'd', 'e', 'f', 'g', 'h', 'i', 'j', 'k', 'l', 'm',
   'n', 'o', 'p', 'q', 'r', 's', 't', 'u', 'v', 'w', 'x', 'y', 'z']

def capitalLetters : List Char :=
  ['A', 'B', 'C', 'D', 'E', 'F', 'G', 'H', 'I', 'J', 'K', 'L', 'M',
   'N', 'O', 'P', 'Q', 'R', 'S', 'T', 'U', 'V', 'W', 'X', 'Y', 'Z']

def accentedLetters : List Char :=
  ['á', 'é', 'í', 'ó', 'ú', 'ü', 'ñ', 'Á', 'É', 'Í', 'Ó', 'Ú', 'Ü', 'Ñ']

def digits : List Char := ['0', '1', '2', '3', '4', '5', '6', '7', '8', '9']

def identifierHead : List Char := smallLetters ++ capitalLetters ++ accentedLetters ++ ['_']

def identifierTail : List Char := identifierHead ++ digits

def identifierBlueprint : Blueprint :=
  ofClauses "identifier" <|
    [.description "letter or '_' followed by letters, digits or '_'", .symbols identifierTail,
      .state "q0" false, .state "q1" true, .initial "q0"] ++
    fan "q0" identifierHead "q1" ++ fan "q1" identifierTail "q1"

/-- two or more small letters that end in `last`: `q1` after any other letter, `q2` after it -/
def endingBlueprint (name description : String) (last : Char) : Blueprint :=
  ofClauses name <|
    [.description description, .symbols smallLetters,
      .state "q0" false, .state "q1" false, .state "q2" true, .initial "q0"] ++
    fan "q0" smallLetters "q1" ++
    fan "q1" (smallLetters.filter (· ≠ last)) "q1" ++ fan "q1" [last] "q2" ++
    fan "q2" (smallLetters.filter (· ≠ last)) "q1" ++ fan "q2" [last] "q2"

def verbBlueprint : Blueprint := endingBlueprint "verb" "lowercase word ending in 'r'" 'r'

def nounBlueprint : Blueprint := endingBlueprint "noun" "lowercase word ending in 'o'" 'o'

def names : List String := ["identifier", "verb", "noun"]

def blueprint? : String → Option Blueprint
  | "identifier" => some identifierBlueprint
  | "verb" => some verbBlueprint
  | "noun" => some nounBlueprint
  | _ => none

end SpanishSyntax.Automaton.Stock
