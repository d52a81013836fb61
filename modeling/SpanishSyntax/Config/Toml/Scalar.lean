import SpanishSyntax.Config.Value
import SpanishSyntax.Text.Numeral

/-!
# Scalars and keys of configuration files

Strings in four styles, numbers, truth values, and keys.  Every reader takes the text from its
first character on and returns what it read with the rest; a text that does not fit is refused.
-/

namespace SpanishSyntax.Config.Toml

def isGap (c : Char) : Bool := c == ' ' || c == '\t'

/-- control characters stand nowhere, except the tab -/
def isPlain (c : Char) : Bool := (' ' ≤ c || c == '\t') && c != '\x7F'

/-! ## strings -/

def prepend (c : Char) (r : Option (List Char × List Char)) : Option (List Char × List Char) :=
  r.map fun p => (c :: p.1, p.2)

def prependScalar (ds : List Char) (r : Option (List Char × List Char)) :
    Option (List Char × List Char) := do
  prepend (← Text.namedChar? ds) r

/-- what follows a backslash, if it is one letter -/
def simpleEscape? : Char → Option Char
  | 'b' => some '\x08'
  | 't' => some '\t'
  | 'n' => some '\n'
  | 'f' => some '\x0C'
  | 'e' => some '\x1B'
  | 'r' => some '\r'
  | '"' => some '"'
  | '\\' => some '\\'
  | _ => none

/-- a basic string from behind its opening quote on -/
def basicBody? : List Char → Option (List Char × List Char)
  | [] => none
  | '"' :: r => some ([], r)
  | '\\' :: 'x' :: a :: b :: r => prependScalar [a, b] (basicBody? r)
  | '\\' :: 'u' :: a :: b :: c :: d :: r => prependScalar [a, b, c, d] (basicBody? r)
  | '\\' :: 'U' :: a :: b :: c :: d :: e :: f :: g :: h :: r =>
    prependScalar [a, b, c, d, e, f, g, h] (basicBody? r)
  | '\\' :: c :: r => do prepend (← simpleEscape? c) (basicBody? r)
  | c :: r => if isPlain c then prepend c (basicBody? r) else none

/-- a backslash at the end of a line -/
def endsLine (cs : List Char) : Bool :=
  match cs.dropWhile isGap with
  | '\n' :: _ => true
  | '\r' :: '\n' :: _ => true
  | _ => false

/-- a basic string over several lines; `skipping` past a backslash at the end of a line; two quotes
may stand before the closing ones -/
def longBasicBody? (skipping : Bool) : List Char → Option (List Char × List Char)
  | [] => none
  | '"' :: '"' :: '"' :: '"' :: '"' :: '"' :: _ => none
  | '"' :: '"' :: '"' :: '"' :: r => prepend '"' (longBasicBody? false ('"' :: '"' :: '"' :: r))
  | '"' :: '"' :: '"' :: r => some ([], r)
  | '\\' :: 'x' :: a :: b :: r => prependScalar [a, b] (longBasicBody? false r)
  | '\\' :: 'u' :: a :: b :: c :: d :: r =>
    prependScalar [a, b, c, d] (longBasicBody? false r)
  | '\\' :: 'U' :: a :: b :: c :: d :: e :: f :: g :: h :: r =>
    prependScalar [a, b, c, d, e, f, g, h] (longBasicBody? false r)
  | '\\' :: c :: r =>
    match simpleEscape? c with
    | some e => prepend e (longBasicBody? false r)
    | none => if endsLine (c :: r) then longBasicBody? true (c :: r) else none
  | '\r' :: '\n' :: r => if skipping then longBasicBody? true r
    else prepend '\n' (longBasicBody? false r)
  | c :: r =>
    if skipping && (isGap c || c == '\n') then longBasicBody? true r
    else if isPlain c || c == '\n' then prepend c (longBasicBody? false r)
    else none

/-- a literal string from behind its opening quote on -/
def literalBody? : List Char → Option (List Char × List Char)
  | [] => none
  | '\'' :: r => some ([], r)
  | c :: r => if isPlain c then prepend c (literalBody? r) else none

def longLiteralBody? : List Char → Option (List Char × List Char)
  | [] => none
  | '\'' :: '\'' :: '\'' :: '\'' :: '\'' :: '\'' :: _ => none
  | '\'' :: '\'' :: '\'' :: '\'' :: r =>
    prepend '\'' (longLiteralBody? ('\'' :: '\'' :: '\'' :: r))
  | '\'' :: '\'' :: '\'' :: r => some ([], r)
  | '\r' :: '\n' :: r => prepend '\n' (longLiteralBody? r)
  | c :: r => if isPlain c || c == '\n' then prepend c (longLiteralBody? r) else none

/-- a line break right behind the opening quotes does not count -/
def dropBreak : List Char → List Char
  | '\n' :: r => r
  | '\r' :: '\n' :: r => r
  | r => r

def string? : List Char → Option (String × List Char)
  | '"' :: '"' :: '"' :: r =>
    (longBasicBody? false (dropBreak r)).map fun p => (String.ofList p.1, p.2)
  | '"' :: r => (basicBody? r).map fun p => (String.ofList p.1, p.2)
  | '\'' :: '\'' :: '\'' :: r =>
    (longLiteralBody? (dropBreak r)).map fun p => (String.ofList p.1, p.2)
  | '\'' :: r => (literalBody? r).map fun p => (String.ofList p.1, p.2)
  | _ => none

/-! ## keys -/

def isBareChar (c : Char) : Bool := c.isAlphanum || c == '_' || c == '-'

/-- one part of a key, bare or quoted -/
def keyPart? : List Char → Option (String × List Char)
  | '"' :: r => (basicBody? r).map fun p => (String.ofList p.1, p.2)
  | '\'' :: r => (literalBody? r).map fun p => (String.ofList p.1, p.2)
  | cs =>
    match cs.takeWhile isBareChar with
    | [] => none
    | k => some (String.ofList k, cs.dropWhile isBareChar)

/-- a dotted key; `n` bounds its parts -/
def key? : Nat → List Char → Option (List String × List Char)
  | 0, _ => none
  | n + 1, cs => do
    let (k, r) ← keyPart? (cs.dropWhile isGap)
    match r.dropWhile isGap with
    | '.' :: r => (key? n r).map fun p => (k :: p.1, p.2)
    | r => pure ([k], r)

/-! ## numbers and truth values -/

def isNumberChar (c : Char) : Bool := c.isAlphanum || c == '_' || c == '+' || c == '-' || c == '.'

/-- digits of a base with single underscores between them -/
def digits? (isDigit : Char → Bool) : List Char → Option (List Char)
  | [] => none
  | [c] => if isDigit c then some [c] else none
  | c :: '_' :: r => if isDigit c then (digits? isDigit r).map (c :: ·) else none
  | c :: r => if isDigit c then (digits? isDigit r).map (c :: ·) else none

/-- decimal digits without a leading zero -/
def wholeDigits? (cs : List Char) : Option (List Char) := do
  let ds ← digits? Char.isDigit cs
  match ds with
  | '0' :: _ :: _ => none
  | _ => some ds

/-- integers are of 64 bits -/
def inRange? (n : Int) : Option Value :=
  if -9223372036854775808 ≤ n ∧ n ≤ 9223372036854775807 then some (.int n) else none

def splitSign : List Char → Bool × List Char
  | '-' :: r => (true, r)
  | '+' :: r => (false, r)
  | r => (false, r)

def exponent? : List Char → Option Int
  | [] => some 0
  | c :: r =>
    if c == 'e' || c == 'E' then
      let (negative, r) := splitSign r
      (digits? Char.isDigit r).map fun ds =>
        if negative then -(Text.numeral 10 ds : Int) else (Text.numeral 10 ds : Int)
    else none

/-- an exponent so far out that only its sign matters is cut back -/
def clampExponent (e : Int) : Int := max (-100000) (min 100000 e)

def isExponentMark (c : Char) : Bool := c == 'e' || c == 'E'

/-- digits, a fraction or an exponent or both -/
def float? (negative : Bool) (cs : List Char) : Option Value := do
  let mantissa := cs.takeWhile (!isExponentMark ·)
  let e ← exponent? (cs.dropWhile (!isExponentMark ·))
  let whole ← wholeDigits? (mantissa.takeWhile (· ≠ '.'))
  let fraction ← match mantissa.dropWhile (· ≠ '.') with
    | [] => some []
    | _ :: f => digits? Char.isDigit f
  pure (.float negative
    (Double.ofDecimal (Text.numeral 10 (whole ++ fraction)) (clampExponent e - fraction.length)))

def number? (token : List Char) : Option Value :=
  match token with
  | '0' :: 'x' :: r => do
    inRange? (Text.numeral 16 (← digits? (Text.isDigitOf 16) r))
  | '0' :: 'o' :: r => do inRange? (Text.numeral 8 (← digits? (Text.isDigitOf 8) r))
  | '0' :: 'b' :: r => do inRange? (Text.numeral 2 (← digits? (Text.isDigitOf 2) r))
  | _ =>
    let (negative, r) := splitSign token
    if r = ['i', 'n', 'f'] then some (.float negative .infinite)
    else if r = ['n', 'a', 'n'] then some .nan
    else match wholeDigits? r with
      | some ds => inRange? (if negative then -(Text.numeral 10 ds : Int) else (Text.numeral 10 ds : Int))
      | none => float? negative r

/-- a number or a truth value -/
def bare? (cs : List Char) : Option (Value × List Char) :=
  let token := cs.takeWhile isNumberChar
  let r := cs.dropWhile isNumberChar
  if token = ['t', 'r', 'u', 'e'] then some (.bool true, r)
  else if token = ['f', 'a', 'l', 's', 'e'] then some (.bool false, r)
  else (number? token).map fun v => (v, r)

end SpanishSyntax.Config.Toml
