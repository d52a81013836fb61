import SpanishSyntax.Decimal.Double
import SpanishSyntax.Text.Numeral

/-!
# YAML scalars

A text is written plainly where that reads back as the same text.  Otherwise it is put in
quotes: single ones if it would read as something else or has a mark of the syntax in a bad
place, double ones with escapes if it holds what cannot be printed.  A text with line feeds is a
literal block, if its blanks would survive there.  What follows a line break stands behind the
margin.
-/

namespace SpanishSyntax.Render.Yaml

/-! ## characters -/

/-- line breaks of the format; some are not printable -/
def isBreak (c : Char) : Bool := c ∈ ['\n', '\r', '\u0085', '\u2028', '\u2029']

/-- a blank, a break or the end of the text -/
def endsWord : List Char → Bool
  | [] => true
  | c :: _ => c == ' ' || c == '\t' || isBreak c

def isPrintable (c : Char) : Bool :=
  c == '\n' || (' ' ≤ c && c ≤ '~') || ('\u00A0' ≤ c && c ≠ '\uFEFF' && c ≠ '\uFFFE' && c ≠ '\uFFFF')

/-! ## texts that read as something else -/

def isNull (s : String) : Bool := s ∈ ["", "~", "null", "Null", "NULL"]

def isBool (s : String) : Bool := s ∈ ["true", "True", "TRUE", "false", "False", "FALSE"]

def dropSign : List Char → List Char
  | '+' :: cs => cs
  | '-' :: cs => cs
  | cs => cs

/-- one digit of the base or more, and a number below `limit` -/
def isNumeralBelow (limit base : Nat) (ds : List Char) : Bool :=
  ds ≠ [] && ds.all (Text.isDigitOf base) && Text.numeral base ds < limit

/-- digits of the base that a letter names -/
def isBasedInteger (limit : Nat) (cs : List Char) : Bool :=
  match cs with
  | '0' :: 'x' :: ds => isNumeralBelow limit 16 ds
  | '0' :: 'o' :: ds => isNumeralBelow limit 8 ds
  | '0' :: 'b' :: ds => isNumeralBelow limit 2 ds
  | _ => false

/-- integers of a named base have 128 bits, one of them for a minus sign -/
def isSignedBasedInteger (cs : List Char) : Bool :=
  match cs with
  | '-' :: r => isBasedInteger (Nat.pow 2 127 + 1) r
  | '+' :: r => isBasedInteger (Nat.pow 2 128) r
  | r => isBasedInteger (Nat.pow 2 128) r

/-- nothing, or a letter and digits, perhaps with a sign -/
def isExponent : List Char → Bool
  | [] => true
  | c :: r => (c == 'e' || c == 'E') && dropSign r ≠ [] && (dropSign r).all Char.isDigit

/-- the value of an exponent, cut back to where only its sign matters -/
def exponentValue : List Char → Int
  | [] => 0
  | _ :: r =>
    let n := min 100000 (Text.numeral 10 (dropSign r))
    if r.head? = some '-' then -(n : Int) else (n : Int)

/-- digits with a point before, among or after them, and perhaps an exponent, of finite value -/
def isFiniteDecimal (cs : List Char) : Bool :=
  let whole := cs.takeWhile Char.isDigit
  let rest := cs.dropWhile Char.isDigit
  let fraction := match rest with
    | '.' :: r => r.takeWhile Char.isDigit
    | _ => []
  let power := match rest with
    | '.' :: r => r.dropWhile Char.isDigit
    | r => r
  whole ++ fraction ≠ [] && isExponent power &&
    Double.ofDecimal (Text.numeral 10 (whole ++ fraction))
      (exponentValue power - fraction.length) ≠ .infinite

def isInfinity (cs : List Char) : Bool := String.ofList cs ∈ [".inf", ".Inf", ".INF"]

def isNotANumber (cs : List Char) : Bool := String.ofList cs ∈ [".nan", ".NaN", ".NAN"]

/-- digits behind a leading zero read as a number elsewhere -/
def isPaddedInteger (cs : List Char) : Bool :=
  match dropSign cs with
  | '0' :: d :: ds => (d :: ds).all Char.isDigit
  | _ => false

def isNumber (cs : List Char) : Bool :=
  let r := dropSign cs
  isSignedBasedInteger cs || isPaddedInteger cs || isFiniteDecimal r || isInfinity r ||
    isNotANumber cs

/-- would a reader take the plain text for something other than a text -/
def isAmbiguous (s : String) : Bool := isNull s || isBool s || isNumber s.toList

/-! ## marks of the syntax -/

def isIndicator (c : Char) : Bool :=
  c ∈ ['#', ',', '[', ']', '{', '}', '&', '*', '!', '|', '>', '\'', '"', '%', '@', '\x60']

def badStart : List Char → Bool
  | '-' :: '-' :: '-' :: _ => true
  | '.' :: '.' :: '.' :: _ => true
  | c :: cs => isIndicator c || ((c == '-' || c == '?' || c == ':') && endsWord cs)
  | [] => false

/-- a colon before a blank, or a number sign behind one -/
def badInside : List Char → Bool
  | [] => false
  | c :: cs => (c == ':' && endsWord cs) || (endsWord [c] && cs.head? = some '#') || badInside cs

/-- two characters in a row of which the first and the second satisfy `p` and `q` -/
def adjacent (p q : Char → Bool) : List Char → Bool
  | c :: d :: cs => (p c && q d) || adjacent p q (d :: cs)
  | _ => false

def isSpace (c : Char) : Bool := c == ' '

def hasEdge (p : Char → Bool) (cs : List Char) : Bool :=
  (cs.head?.map p).getD false || (cs.getLast?.map p).getD false

def plainAllowed (cs : List Char) : Bool :=
  !badStart cs && !badInside cs && !hasEdge isSpace cs && !cs.any isBreak && cs.all isPrintable

def singleAllowed (cs : List Char) : Bool :=
  cs.all isPrintable && !adjacent isSpace isBreak cs && !adjacent isBreak isSpace cs

def blockAllowed (cs : List Char) : Bool :=
  cs.all isPrintable && !adjacent isSpace isBreak cs && !(cs.getLast?.map isSpace).getD false

/-! ## writing -/

def upperHex (width n : Nat) : List Char :=
  let ds := (Nat.toDigits 16 n).map Char.toUpper
  List.replicate (width - ds.length) '0' ++ ds

def escapeChar (c : Char) : List Char :=
  match c with
  | '\x00' => ['\\', '0']
  | '\x07' => ['\\', 'a']
  | '\x08' => ['\\', 'b']
  | '\t' => ['\\', 't']
  | '\n' => ['\\', 'n']
  | '\x0B' => ['\\', 'v']
  | '\x0C' => ['\\', 'f']
  | '\r' => ['\\', 'r']
  | '\x1B' => ['\\', 'e']
  | '"' => ['\\', '"']
  | '\\' => ['\\', '\\']
  | '\u0085' => ['\\', 'N']
  | '\u2028' => ['\\', 'L']
  | '\u2029' => ['\\', 'P']
  | c =>
    if isPrintable c then [c]
    else if c.toNat ≤ 0xFF then '\\' :: 'x' :: upperHex 2 c.toNat
    else '\\' :: 'u' :: upperHex 4 c.toNat

def doubleQuoted (cs : List Char) : List Char := '"' :: cs.flatMap escapeChar ++ ['"']

def margin (columns : Nat) : List Char := List.replicate columns ' '

/-- the margin stands before what follows a break; `fresh` right behind one -/
def behindMargin (columns : Nat) (fresh : Bool) : List Char → List Char
  | [] => []
  | c :: cs =>
    if isBreak c then c :: behindMargin columns true cs
    else if fresh then margin columns ++ c :: behindMargin columns false cs
    else c :: behindMargin columns false cs

/-- every single quote twice -/
def repeatQuotes (cs : List Char) : List Char :=
  cs.flatMap fun c => if c = '\'' then ['\'', '\''] else [c]

/-- the closing quote stands behind the margin, too -/
def singleQuoted (columns : Nat) (cs : List Char) : List Char :=
  '\'' :: behindMargin columns false (repeatQuotes cs) ++
    (if (cs.getLast?.map isBreak).getD false then margin columns else []) ++ ['\'']

def quote (columns : Nat) (cs : List Char) : List Char :=
  if singleAllowed cs then singleQuoted columns cs else doubleQuoted cs

/-- how the breaks at the end count -/
def chomping (cs : List Char) : List Char :=
  match cs.reverse with
  | [c] => if isBreak c then ['+'] else ['-']
  | c :: d :: _ => if !isBreak c then ['-'] else if isBreak d then ['+'] else []
  | [] => ['-']

/-- the indentation has to be told if the text begins with a blank or a break -/
def indentation (cs : List Char) : List Char :=
  match cs with
  | c :: _ => if isSpace c || isBreak c then ['2'] else []
  | [] => []

/-- a literal block without the line feed at its end -/
def block (columns : Nat) (cs : List Char) : List Char :=
  let body := behindMargin columns true cs
  '|' :: indentation cs ++ chomping cs ++
    '\n' :: if (cs.getLast?.map isBreak).getD false then body.dropLast else body

def scalarChars (columns : Nat) (s : String) : List Char :=
  let cs := s.toList
  if '\n' ∈ cs then if blockAllowed cs then block columns cs else doubleQuoted cs
  else if isAmbiguous s || !plainAllowed cs then quote columns cs
  else cs

/-- a text, what follows its first line standing behind a margin of `columns` -/
def scalar (columns : Nat) (s : String) : String := String.ofList (scalarChars columns s)

/-- a character is always in quotes -/
def characterScalar (columns : Nat) (c : Char) : String := String.ofList (quote columns [c])

end SpanishSyntax.Render.Yaml
