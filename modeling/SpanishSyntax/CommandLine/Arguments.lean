import SpanishSyntax.Automaton.Stock

/-!
# Arguments of the command line

A command is named by the first argument that is neither an option nor the value of one.  The
options for configuration may stand before it or behind it; what stands behind it counts more.

* `--name VALUE`, `--name=VALUE`, `-n VALUE`, `-nVALUE` and `-n=VALUE` give an option its value
* short options without a value can be joined, `-vh`
* a value of its own does not begin with a hyphen, except a lone one
* everything behind `--` is an operand

Arguments are read from the left, and the first that asks for help, for the version, or is a
mistake decides.
-/

namespace SpanishSyntax.CommandLine

inductive Switch where
  | config
  | set
  | verbose
  | format
  | help
  | version
  deriving DecidableEq, Repr

namespace Switch

def takesValue : Switch → Bool
  | config => true
  | set => true
  | format => true
  | _ => false

/-- may it be given several times in one place -/
def repeats (s : Switch) : Bool := s == set

end Switch

inductive CommandName where
  | analyze
  | table
  | simulate
  | stem
  | formats
  deriving DecidableEq, Repr

namespace CommandName

def ofName? : String → Option CommandName
  | "analyze" => some analyze
  | "table" => some table
  | "simulate" => some simulate
  | "stem" => some stem
  | "formats" => some formats
  | _ => none

/-- may `operand` come after `before` operands -/
def admits (c : CommandName) (before : Nat) (operand : String) : Bool :=
  match c with
  | analyze => before == 0
  | simulate => if before == 0 then operand ∈ Automaton.Stock.names else before == 1
  | stem => true
  | table => false
  | formats => false

end CommandName

/-! ## options -/

/-- where options stand: before a command's name or behind it -/
inductive Place where
  | front
  | behind (c : CommandName)
  deriving DecidableEq, Repr

namespace Place

def knows : Place → Switch → Bool
  | front, .format => false
  | behind c, .format => c == .analyze
  | behind _, .version => false
  | _, _ => true

def switch? (p : Place) (s : Switch) : Option Switch := if p.knows s then some s else none

def long? (p : Place) : String → Option Switch
  | "config" => p.switch? .config
  | "set" => p.switch? .set
  | "verbose" => p.switch? .verbose
  | "format" => p.switch? .format
  | "help" => p.switch? .help
  | "version" => p.switch? .version
  | _ => none

def short? (p : Place) : Char → Option Switch
  | 'c' => p.switch? .config
  | 'v' => p.switch? .verbose
  | 'f' => p.switch? .format
  | 'h' => p.switch? .help
  | 'V' => p.switch? .version
  | _ => none

end Place

/-- why reading stops before the end -/
inductive Stop where
  | help
  | version
  | mistake
  deriving DecidableEq, Repr

/-- the options and operands of one place, in order -/
structure Reading where
  given : List (Switch × String)
  operands : List String
  deriving DecidableEq, Repr

namespace Reading

def empty : Reading := ⟨[], []⟩

def enter (r : Reading) (s : Switch) (v : String) : Except Stop Reading :=
  match s with
  | .help => .error .help
  | .version => .error .version
  | _ =>
    if !s.repeats && r.given.any (·.1 = s) then .error .mistake
    else .ok { r with given := r.given ++ [(s, v)] }

/-- an option that has its value, if it takes one, or is still wanting it -/
def enterOrWant (r : Reading) (s : Switch) (v : Option String) :
    Except Stop (Reading × Option Switch) :=
  match s.takesValue, v with
  | true, none => .ok (r, some s)
  | true, some v => (r.enter s v).map fun r => (r, none)
  | false, none => (r.enter s "").map fun r => (r, none)
  | false, some _ => .error .mistake

/-- what follows two hyphens -/
def enterLong (p : Place) (r : Reading) (cs : List Char) :
    Except Stop (Reading × Option Switch) :=
  match p.long? (String.ofList (cs.takeWhile (· ≠ '='))), cs.dropWhile (· ≠ '=') with
  | none, _ => .error .mistake
  | some s, [] => r.enterOrWant s none
  | some s, _ :: v => r.enterOrWant s (some (String.ofList v))

/-- what follows one hyphen -/
def enterShort (p : Place) (r : Reading) : List Char → Except Stop (Reading × Option Switch)
  | [] => .ok (r, none)
  | c :: cs =>
    match p.short? c with
    | none => .error .mistake
    | some s =>
      if s.takesValue then
        match cs with
        | [] => r.enterOrWant s none
        | '=' :: v => r.enterOrWant s (some (String.ofList v))
        | v => r.enterOrWant s (some (String.ofList v))
      else do enterShort p (← r.enter s "") cs

/-! ## operands -/

def addOperand (c : CommandName) (r : Reading) (a : String) : Except Stop Reading :=
  if c.admits r.operands.length a then .ok { r with operands := r.operands ++ [a] }
  else .error .mistake

def addOperands (p : Place) (r : Reading) (as : List String) : Except Stop Reading :=
  match p with
  | .front => .error .mistake
  | .behind c => as.foldlM (addOperand c) r

/-- does it begin with a hyphen and more -/
def isOptionLike : List Char → Bool
  | '-' :: _ :: _ => true
  | _ => false

/-- reads on, `wanting` the value of an option; in front, up to the name of a command -/
def read (p : Place) (r : Reading) (wanting : Option Switch) :
    List String → Except Stop (Reading × List String)
  | [] => if wanting.isSome then .error .mistake else .ok (r, [])
  | a :: rest =>
    match wanting, a.toList with
    | some s, cs =>
      if isOptionLike cs then .error .mistake else do read p (← r.enter s a) none rest
    | none, ['-', '-'] => (r.addOperands p rest).map fun r => (r, [])
    | none, '-' :: '-' :: cs => do
      let (r, wanting) ← r.enterLong p cs
      read p r wanting rest
    | none, '-' :: c :: cs => do
      let (r, wanting) ← r.enterShort p (c :: cs)
      read p r wanting rest
    | none, _ =>
      match p with
      | .front => .ok (r, a :: rest)
      | .behind c => do read p (← r.addOperand c a) none rest

def values (r : Reading) (s : Switch) : List String :=
  (r.given.filter (·.1 = s)).map (·.2)

end Reading

/-! ## invocations -/

inductive Command where
  | analyze (sentence : String) (format : Option String)
  | table
  | simulate (automaton input : String)
  | stem (words : List String)
  | formats
  deriving DecidableEq, Repr

/-- `config` is the path of a file, `overrides` are texts `KEY=VALUE` -/
structure Invocation where
  config : Option String
  overrides : List String
  command : Command
  deriving DecidableEq, Repr

/-- the command with its operands, if none is missing -/
def Command.ofOperands? (c : CommandName) (r : Reading) : Option Command :=
  match c, r.operands with
  | .analyze, [s] => some (.analyze s (r.values .format).head?)
  | .table, [] => some .table
  | .simulate, [a, i] => some (.simulate a i)
  | .stem, w :: ws => some (.stem (w :: ws))
  | .formats, [] => some .formats
  | _, _ => none

/-- what stands behind a command's name replaces what stands before it -/
def behindOrFront (front behind : Reading) (s : Switch) : List String :=
  match behind.values s with
  | [] => front.values s
  | vs => vs

/-- the command `help` may be given the name of one command -/
def helpOn : List String → Stop
  | [] => .help
  | [c] => if c = "help" ∨ (CommandName.ofName? c).isSome then .help else .mistake
  | _ => .mistake

def Invocation.read (args : List String) : Except Stop Invocation := do
  let (front, rest) ← Reading.empty.read .front none args
  match rest with
  | [] => .error .mistake
  | "help" :: rest => .error (helpOn rest)
  | name :: rest =>
    match CommandName.ofName? name with
    | none => .error .mistake
    | some c =>
      let (behind, _) ← Reading.empty.read (.behind c) none rest
      match Command.ofOperands? c behind with
      | none => .error .mistake
      | some command =>
        .ok ⟨(behindOrFront front behind .config).head?, behindOrFront front behind .set, command⟩

end SpanishSyntax.CommandLine
