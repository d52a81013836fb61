import SpanishSyntax.CommandLine.Arguments
import SpanishSyntax.CommandLine.Listing
import SpanishSyntax.Config.Layers
import SpanishSyntax.Lexicon.Pattern.Reader
import SpanishSyntax.Text.Blank

/-!
# Responses to the command line

Exit code 0 is success, 1 a failure with a message, 2 a rejected sentence or input, and also a
mistake in the arguments.  The commands `simulate`, `stem` and `formats` need no configuration
and do not look at it.
-/

namespace SpanishSyntax.CommandLine

open Config (Layer Settings)
open Render (Formats)

/-- `error` is the message of a failure -/
structure Response where
  code : Nat
  output : String
  error : Option String
  deriving DecidableEq, Repr

namespace Response

def failure (message : String) : Response := ⟨1, "", some message⟩

/-- an answer to a sentence or an input -/
def answer (accepted : Bool) (output : String) : Response :=
  ⟨if accepted then 0 else 2, output, none⟩

def version : String := "sintagma 0.1.0\n"

def ofStop : Stop → Response
  | .help => ⟨0, "", none⟩
  | .version => ⟨0, version, none⟩
  | .mistake => ⟨2, "", none⟩

end Response

/-- a text with a line feed at its end -/
def endLine (s : String) : String :=
  if s.toList.getLast? = some '\n' then s else s ++ "\n"

/-- key and value of an override, cut at the first equals sign; both are trimmed -/
def overrideLayer (s : String) : Layer :=
  let trimmed := fun (cs : List Char) => String.ofList (Text.trim cs)
  .override (trimmed (s.toList.takeWhile (· ≠ '=')))
    (.text (trimmed ((s.toList.dropWhile (· ≠ '=')).drop 1)))

/-- one name for every way in which a command can fail -/
inductive Failure where
  | config (e : Config.LoadError)
  | format (e : Render.RenderError)
  | analyzer (f : Analyzer.Fault)
  deriving DecidableEq, Repr

def Failure.message : Failure → String
  | .config e => e.message
  | .format e => e.message
  | .analyzer f => f.message

namespace Invocation

/-- `file` gives the content of the files that can be read -/
def settings (file : String → Option String) (i : Invocation) : Except Failure Settings :=
  let fileLayers := match i.config with
    | some path => [Layer.file (file path) true]
    | none => []
  (Config.load (fileLayers ++ i.overrides.map overrideLayer)).mapError .config

def analyzer (s : Settings) : Except Failure Analyzer :=
  (Analyzer.ofSettings Lexicon.Pattern.regexes s).mapError .analyzer

/-- an unknown format is reported before anything is built -/
def analyze (s : Settings) (sentence : String) (format : Option String) :
    Except Failure Response := do
  let name := format.getD s.outputFormat
  if !Formats.standard.has name then throw (.format (.formatNotFound name))
  let analysis := (← analyzer s).analyze sentence
  let output ← (Formats.standard.render analysis name).mapError .format
  pure (.answer analysis.accepted (endLine output))

def simulate (automaton input : String) : Response :=
  match Automaton.Stock.blueprint? automaton with
  | none => .ofStop .mistake
  | some b =>
    match b.build with
    | .error d => .failure d.message
    | .ok a => .answer (a.simulate input).accepted (a.listing (a.simulate input))

def run (file : String → Option String) (i : Invocation) : Except Failure Response :=
  match i.command with
  | .analyze sentence format => do analyze (← i.settings file) sentence format
  | .table => do pure (.answer true (← analyzer (← i.settings file)).table.listing)
  | .simulate automaton input => pure (simulate automaton input)
  | .stem words => pure (.answer true (Semantic.stemListing words))
  | .formats => pure (.answer true Formats.standard.listing)

end Invocation

/-- the response to arguments, with the files that can be read -/
def respond (file : String → Option String) (args : List String) : Response :=
  match Invocation.read args with
  | .error s => .ofStop s
  | .ok i =>
    match i.run file with
    | .error f => .failure f.message
    | .ok r => r

end SpanishSyntax.CommandLine
