import TypedMarkup.CommandLine.Run

/-! # The program

Reads what the arguments ask for, runs, and writes what the run gives.
-/
namespace TypedMarkup.CommandLine
set_option autoImplicit false

/-- The contents of a file that can be read. -/
def contents? (path : String) : IO (Option String) := do
  try
    return some (← IO.FS.readFile path)
  catch _ =>
    return none

/-- The standard input, if it is text. -/
def standardInput? : IO (Option String) := do
  try
    return some (← (← IO.getStdin).readToEnd)
  catch _ =>
    return none

/-- Reads the files named, and the standard input where no template is named. -/
def runOnSystem (args : List String) : IO Result := do
  match Options.ofArgs args with
  | .error _ => return run args none fun _ => none
  | .ok o =>
    let found ← o.paths.mapM fun path => return (path, ← contents? path)
    let stdin ← if o.template.isNone then standardInput? else pure none
    return run args stdin fun path => (found.lookup path).join

end TypedMarkup.CommandLine

def main (args : List String) : IO UInt32 := do
  let result ← TypedMarkup.CommandLine.runOnSystem args
  IO.eprint result.stderr
  IO.print result.stdout
  return result.exit.toUInt32
