import SpanishSyntax.Text.Lowercase

/-!
# Stems of Spanish words

A word is put into small letters without diacritics, and then loses at most one suffix of each
group: plural, diminutive, `mente`, verbal, nominal, in this order.  Of a group's suffixes the
longest goes; a diminutive, verbal or nominal one only if two characters stay.
-/

namespace SpanishSyntax.Semantic

def plainLetter : Char → Char
  | 'á' => 'a'
  | 'é' => 'e'
  | 'í' => 'i'
  | 'ó' => 'o'
  | 'ú' => 'u'
  | 'ü' => 'u'
  | 'ñ' => 'n'
  | c => c

/-- `lower` puts a text into small letters -/
def normalChars (lower : String → String) (word : String) : List Char :=
  (lower word).toList.map plainLetter

def normalizeBy (lower : String → String) (word : String) : String :=
  String.ofList (normalChars lower word)

def normalize (word : String) : String := normalizeBy Text.lowercase word

/-! ## suffixes -/

def diminutives : List String := ["citos", "citas", "cito", "cita", "itos", "itas", "ito", "ita"]

def verbals : List String :=
  ["ando", "endo", "ado", "ido", "iendo", "ar", "er", "ir", "as", "abas", "adas", "idas", "aras",
   "ases", "ieses", "aste", "iste", "an", "aban", "ian", "aran", "ieran", "asen", "iesen", "aron",
   "ieron", "io"]

def nominals : List String :=
  ["anza", "anzas", "ico", "ica", "icos", "icas", "ismo", "ismos", "able", "ables", "ible",
   "ibles", "ista", "istas", "oso", "osa", "osos", "osas", "amiento", "amientos", "imiento",
   "imientos", "acion", "aciones", "cion", "ciones", "dad", "dades", "idad", "idades"]

def endsWith (word : List Char) (suffix : String) : Bool := suffix.toList.isSuffixOf word

/-- the suffix may go if two characters stay -/
def removable (word : List Char) (suffix : String) : Bool :=
  endsWith word suffix && suffix.length + 1 < word.length

/-- the length of the longest suffix that may go, zero if none may -/
def longestRemovable (word : List Char) (suffixes : List String) : Nat :=
  ((suffixes.filter (removable word)).map String.length).foldl max 0

def dropLast (n : Nat) (word : List Char) : List Char := word.take (word.length - n)

def stripLongest (suffixes : List String) (word : List Char) : List Char :=
  dropLast (longestRemovable word suffixes) word

def stripPlural (word : List Char) : List Char :=
  if 4 < word.length ∧ (endsWith word "es" ∨ endsWith word "as" ∨ endsWith word "os") then
    dropLast 2 word
  else if 3 < word.length ∧ endsWith word "s" ∧ ¬endsWith word "us" ∧ ¬endsWith word "is" then
    dropLast 1 word
  else word

def stripMente (word : List Char) : List Char :=
  if 5 < word.length ∧ endsWith word "mente" then dropLast 5 word else word

/-- words of one or two characters are their own stems -/
def stemChars (word : List Char) : List Char :=
  if word.length ≤ 2 then word
  else stripLongest nominals (stripLongest verbals (stripMente (stripLongest diminutives
    (stripPlural word))))

def stemBy (lower : String → String) (word : String) : String :=
  String.ofList (stemChars (normalChars lower word))

def stem (word : String) : String := stemBy Text.lowercase word

end SpanishSyntax.Semantic
