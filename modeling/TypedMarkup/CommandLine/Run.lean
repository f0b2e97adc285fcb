import TypedMarkup.CommandLine.Options
import TypedMarkup.Report.OfErrors
import TypedMarkup.Settings

/-! # Running the program

What the program writes and how it ends, as a function of its arguments, its standard input and the
files it can read.
-/
namespace TypedMarkup.CommandLine
set_option autoImplicit false

structure Result where
  exit : Nat
  stdout : String
  stderr : String
deriving DecidableEq

/-- A source with the name that reports give it. -/
structure Input where
  name : String
  text : String
deriving DecidableEq

/-- The contents of the files there are, by their paths. -/
abbrev Files : Type := String → Option String

def notFound : String := "No such file or directory (os error 2)"

def notUtf8 : String := "stream did not contain valid UTF-8"

/-- A message and the end of the program. -/
def failure (message : String) : Result := ⟨1, "", message ++ "\n"⟩

def readFile (files : Files) (path : String) : Except String Input :=
  match files path with
  | some text => .ok ⟨path, text⟩
  | none => .error ("Error reading file '" ++ path ++ "': " ++ notFound)

def readFiles (files : Files) : List String → Except String (List Input)
  | [] => .ok []
  | path :: rest =>
    match readFile files path with
    | .error e => .error e
    | .ok input => (readFiles files rest).map (input :: ·)

/-- The standard input, if it is text. -/
def readStdin : Option String → Except String Input
  | some text => .ok ⟨"<stdin>", text⟩
  | none => .error ("Error reading from stdin: " ++ notUtf8)

/-- The template is the file named, or else the standard input. -/
def readTemplate (files : Files) (stdin : Option String) : Option String → Except String Input
  | some path => readFile files path
  | none => readStdin stdin

def readSettings (files : Files) : Option String → Except String Settings
  | none => .ok .standard
  | some path =>
    let refuse (reason : String) : Except String Settings :=
      .error ("Error loading config '" ++ path ++ "': " ++ reason)
    match files path with
    | none => refuse ("Failed to read config file: " ++ notFound)
    | some text =>
      match Settings.parse? text with
      | some settings => .ok settings
      | none => refuse "Failed to parse config TOML"

/-- What is read before compiling: settings, then component files, then the template. -/
structure Job where
  settings : Settings
  components : List Input
  template : Input
deriving DecidableEq

def Job.read (o : Options) (stdin : Option String) (files : Files) : Except String Job :=
  match readSettings files o.config with
  | .error e => .error e
  | .ok settings =>
    match readFiles files o.components with
    | .error e => .error e
    | .ok components => (readTemplate files stdin o.template).map fun template => ⟨settings, components, template⟩

/-- The input that an error comes from. -/
def Job.input (job : Job) : Origin → Input
  | .template => job.template
  | .components index => job.components.getD index job.template

/-- The exit status of a program that a report without a drawing has stopped. -/
def crashed : Nat := 101

/-- Writes reports on an input up to the first that has no drawing. Tells whether there is none. -/
def writeReports (input : Input) (color : Bool) : List Report → String × Bool
  | [] => ("", true)
  | r :: rest =>
    match r.render? input.name input.text color with
    | none => ("Label start is after its end\n", false)
    | some text =>
      let (others, complete) := writeReports input color rest
      (text ++ others, complete)

/-- Compiles and reports. Problems at usage sites do not keep the code from being written. -/
def Job.run (job : Job) (diagnosticsOnly : Bool) : Result :=
  match compile job.template.text (job.components.map Input.text) job.settings.listing with
  | .error e =>
    let (text, complete) := writeReports (job.input e.origin) job.settings.color e.reports
    ⟨if complete then 1 else crashed, "", text⟩
  | .ok c =>
    let (text, complete) :=
      writeReports job.template job.settings.color (c.diagnostics.map Diagnostic.report)
    if complete then
      ⟨if c.hasErrors then 1 else 0, if diagnosticsOnly then "" else c.generated, text⟩
    else ⟨crashed, "", text⟩

def usage : String :=
  "Compile component templates and report generic type inference diagnostics\n\n" ++
  "Arguments: [OPTIONS] [TEMPLATE]\n\n" ++
  "  -c, --components <FILE>  Component source files whose declarations the template can use\n" ++
  "      --config <FILE>      Compiler configuration file (TOML format)\n" ++
  "      --diagnostics-only   Report diagnostics without printing generated code\n" ++
  "  -v, --verbose            Enable debug logging\n" ++
  "  -h, --help               Print help\n"

/-- Runs the program on its arguments. -/
def run (args : List String) (stdin : Option String) (files : Files) : Result :=
  match Options.ofArgs args with
  | .error .help => ⟨0, usage, ""⟩
  | .error .usage => ⟨2, "", usage⟩
  | .ok o =>
    match Job.read o stdin files with
    | .error message => failure message
    | .ok job => job.run o.diagnosticsOnly

end TypedMarkup.CommandLine
