/-! # Command-line options

The arguments of the program: flags, options with a value, and at most one template file. Short flags
may be joined, and a value may follow its option directly, behind an equals sign, or as an argument.
-/
namespace TypedMarkup.CommandLine
set_option autoImplicit false

structure Options where
  template : Option String
  components : List String
  config : Option String
  diagnosticsOnly : Bool
  verbose : Bool
deriving DecidableEq

/-- Why arguments do not ask for a compilation. -/
inductive Refusal where
  | help
  | usage
deriving DecidableEq

namespace Options

/-- What holds before any argument is read. -/
def initial : Options := ⟨none, [], none, false, false⟩

/-- Sets an option that has a value. Only component files may be given more than once, and no value
is empty. -/
def withTemplate (o : Options) (path : String) : Except Refusal Options :=
  if path.isEmpty ∨ o.template.isSome then .error .usage else .ok { o with template := some path }

def withComponents (o : Options) (path : String) : Except Refusal Options :=
  if path.isEmpty then .error .usage else .ok { o with components := o.components ++ [path] }

def withConfig (o : Options) (path : String) : Except Refusal Options :=
  if path.isEmpty ∨ o.config.isSome then .error .usage else .ok { o with config := some path }

def withDiagnosticsOnly (o : Options) : Except Refusal Options :=
  if o.diagnosticsOnly then .error .usage else .ok { o with diagnosticsOnly := true }

def withVerbose (o : Options) : Except Refusal Options :=
  if o.verbose then .error .usage else .ok { o with verbose := true }

/-- Whether an argument can be the value of the option before it. -/
def isValue (arg : List Char) : Bool :=
  match arg with
  | '-' :: _ :: _ => false
  | _ => true

/-- What an argument asks for once it is read: nothing more, or a value from the next argument. -/
inductive Pending where
  | nothing
  | components
  | config

/-- Reads an argument that begins with two dashes, without them. -/
def long (o : Options) (arg : List Char) : Except Refusal (Options × Pending) :=
  let name := String.ofList (arg.takeWhile (· ≠ '='))
  match name, arg.dropWhile (· ≠ '=') with
  | "components", [] => .ok (o, .components)
  | "components", _ :: value => (o.withComponents (String.ofList value)).map (·, .nothing)
  | "config", [] => .ok (o, .config)
  | "config", _ :: value => (o.withConfig (String.ofList value)).map (·, .nothing)
  | "diagnostics-only", [] => o.withDiagnosticsOnly.map (·, .nothing)
  | "verbose", [] => o.withVerbose.map (·, .nothing)
  | "help", [] => .error .help
  | _, _ => .error .usage

/-- Reads joined short flags. -/
def short : Options → List Char → Except Refusal (Options × Pending)
  | o, [] => .ok (o, .nothing)
  | o, 'v' :: rest =>
    match o.withVerbose with
    | .ok o' => o'.short rest
    | .error e => .error e
  | _, 'h' :: _ => .error .help
  | o, ['c'] => .ok (o, .components)
  | o, 'c' :: '=' :: value => (o.withComponents (String.ofList value)).map (·, .nothing)
  | o, 'c' :: value => (o.withComponents (String.ofList value)).map (·, .nothing)
  | _, _ => .error .usage

/-- Reads arguments behind two lone dashes, none of which is an option. -/
def operands : Options → List String → Except Refusal Options
  | o, [] => .ok o
  | o, arg :: rest =>
    match o.withTemplate arg with
    | .ok o' => o'.operands rest
    | .error e => .error e

def read : Options → Pending → List String → Except Refusal Options
  | o, .nothing, [] => .ok o
  | _, _, [] => .error .usage
  | o, .nothing, arg :: rest =>
    let step : Except Refusal (Options × Pending) :=
      match arg.toList with
      | '-' :: '-' :: [] => .ok (o, .nothing)
      | '-' :: '-' :: name => o.long name
      | '-' :: c :: flags => o.short (c :: flags)
      | _ => (o.withTemplate arg).map (·, .nothing)
    match step with
    | .error e => .error e
    | .ok (o', pending) => if arg = "--" then o'.operands rest else o'.read pending rest
  | o, .components, arg :: rest =>
    if isValue arg.toList then
      match o.withComponents arg with
      | .ok o' => o'.read .nothing rest
      | .error e => .error e
    else .error .usage
  | o, .config, arg :: rest =>
    if isValue arg.toList then
      match o.withConfig arg with
      | .ok o' => o'.read .nothing rest
      | .error e => .error e
    else .error .usage

/-- The options that arguments give. -/
def ofArgs (args : List String) : Except Refusal Options := Options.initial.read .nothing args

/-- The files that the options name. -/
def paths (o : Options) : List String := o.config.toList ++ o.components ++ o.template.toList

end Options
end TypedMarkup.CommandLine
