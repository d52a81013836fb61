import SpanishSyntax.Config.Defaults
import SpanishSyntax.Config.KeyPath
import SpanishSyntax.Config.Toml.Document

/-!
# Layers of configuration

Files are laid over the default settings in order, and then the overrides over the files,
wherever they stand among them.  Of several overrides of one key the last counts.
-/

namespace SpanishSyntax.Config

/-- a file has no content if it does not exist -/
inductive Layer where
  | file (content : Option String) (required : Bool)
  | override (key : String) (v : Value)

inductive LoadError where
  | malformedKey (key : String)
  | missingFile
  | malformedFile
  | unreadableSettings
  deriving DecidableEq, Repr

def LoadError.message (_ : LoadError) : String := "configuration error"

namespace Layer

/-- lays one entry of a file over a table; a name that reads as a key path is one -/
def setEntry (root : Value) (entry : String × Value) : Value :=
  let path := (KeyPath.read? entry.1).getD ⟨entry.1, []⟩
  path.set entry.2 root

def applyFile (root : Value) : Layer → Except LoadError Value
  | file none true => .error .missingFile
  | file none false => .ok root
  | file (some content) _ =>
    match Toml.read? content with
    | some fields => .ok (fields.foldl setEntry root)
    | none => .error .malformedFile
  | override _ _ => .ok root

/-- adds an override; an earlier one of the same path is dropped -/
def addOverride (done : List (KeyPath × Value)) : Layer →
    Except LoadError (List (KeyPath × Value))
  | override key v =>
    match KeyPath.read? key with
    | some p => .ok (done.filter (·.1 ≠ p) ++ [(p, v)])
    | none => .error (.malformedKey key)
  | file _ _ => .ok done

end Layer

/-- all layers over the default settings, as a value -/
def layered (layers : List Layer) : Except LoadError Value := do
  let overrides ← layers.foldlM Layer.addOverride []
  let files ← layers.foldlM Layer.applyFile Settings.default.toValue
  pure (overrides.foldl (fun root o => o.1.set o.2 root) files)

def load (layers : List Layer) : Except LoadError Settings := do
  match Settings.ofValue? (← layered layers) with
  | some s => pure s
  | none => throw .unreadableSettings

end SpanishSyntax.Config
