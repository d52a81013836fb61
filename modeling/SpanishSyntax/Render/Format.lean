import SpanishSyntax.Render.Json
import SpanishSyntax.Render.Outline
import SpanishSyntax.Render.Record
import SpanishSyntax.Render.Tags
import SpanishSyntax.Render.Yaml

/-!
# Output formats

A format has a name, a line that describes it, and a way to write an analysis, which may fail.
`Formats` keeps them in the order of their names, one for each name: a format registered later
replaces the earlier one of its name.
-/

namespace SpanishSyntax.Render

structure Format where
  name : String
  description : String
  render : Analysis → Except String String

inductive RenderError where
  | formatNotFound (name : String)
  | failed (reason : String)
  deriving DecidableEq, Repr

def RenderError.message : RenderError → String
  | .formatNotFound name => s!"Format '{name}' not found"
  | .failed reason => "Serialization error: " ++ reason

structure Formats where
  entries : List Format

namespace Formats

def empty : Formats := ⟨[]⟩

def insert (f : Format) : List Format → List Format
  | [] => [f]
  | g :: gs =>
    if f.name = g.name then f :: gs
    else if f.name < g.name then f :: g :: gs
    else g :: insert f gs

def register (fs : Formats) (f : Format) : Formats := ⟨insert f fs.entries⟩

def get? (fs : Formats) (name : String) : Option Format := fs.entries.find? (·.name = name)

def has (fs : Formats) (name : String) : Bool := (fs.get? name).isSome

def names (fs : Formats) : List String := fs.entries.map (·.name)

def render (fs : Formats) (a : Analysis) (name : String) : Except RenderError String :=
  match fs.get? name with
  | none => .error (.formatNotFound name)
  | some f => (f.render a).mapError .failed

/-! ## the standard formats -/

def outline : Format :=
  ⟨"treeviz", "Text tree with derivation and parser trace", fun a => .ok a.outline⟩

def tags : Format := ⟨"tag", "XML-like nested tags", fun a => .ok a.markup⟩

def json : Format := ⟨"json", "Full analysis as pretty-printed JSON", fun a => .ok (a.document.json 0)⟩

def yaml : Format := ⟨"yaml", "Full analysis as YAML", fun a => .ok a.document.yaml⟩

def standard : Formats := [outline, tags, json, yaml].foldl register empty

end Formats

end SpanishSyntax.Render
