import SpanishSyntax.CommandLine.Response

/-!
# The program

Reads the configuration file that the arguments name, if any, and prints the response.
-/

namespace SpanishSyntax.CommandLine

/-- the content of a file, if it can be read -/
def readFile? (path : String) : IO (Option String) := do
  try
    pure (some (← IO.FS.readFile path))
  catch _ =>
    pure none

/-- a configuration file may be named without its extension -/
def readConfig? (path : String) : IO (Option String) := do
  match ← readFile? path with
  | some content => pure (some content)
  | none => readFile? (path ++ ".toml")

/-- the path of the configuration file that the arguments name -/
def configPath? (args : List String) : Option String :=
  match Invocation.read args with
  | .ok i => i.config
  | .error _ => none

def serve (args : List String) : IO UInt32 := do
  let content ← match configPath? args with
    | some path => readConfig? path
    | none => pure none
  let response := respond (fun _ => content) args
  IO.print response.output
  if let some message := response.error then
    IO.eprintln ("Error: " ++ message)
  pure response.code.toUInt32

end SpanishSyntax.CommandLine

def main (args : List String) : IO UInt32 := SpanishSyntax.CommandLine.serve args
