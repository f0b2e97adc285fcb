import TypedMarkup.Listing.Generate

/-! # Compiling a template

Component sources and the template are read in turn; what they declare is visible to the whole
template. A source that is no document, or that repeats a declared name, ends the compilation.
Problems at usage sites are reported beside the generated code.
-/
namespace TypedMarkup
set_option autoImplicit false

/-- Which of the sources something was found in. -/
inductive Origin where
  | template
  | components (index : Nat)
deriving DecidableEq

def Origin.describe : Origin → String
  | template => "template"
  | components index => "component source #" ++ toString (index + 1)

inductive CompileError where
  | malformed (origin : Origin) (errors : List SyntaxError)
  | declaration (origin : Origin) (error : DeclarationError)
deriving DecidableEq

namespace CompileError

def origin : CompileError → Origin
  | malformed o _ => o
  | declaration o _ => o

def message : CompileError → String
  | malformed o errors =>
    "parse errors in " ++ o.describe ++ ": " ++ "; ".intercalate (errors.map SyntaxError.display)
  | declaration o e => "declaration error in " ++ o.describe ++ ": " ++ e.message

end CompileError

structure Compilation where
  generated : String
  diagnostics : List Diagnostic
  resolutions : List Resolution
deriving DecidableEq

def Compilation.hasErrors (c : Compilation) : Bool := c.diagnostics.any Diagnostic.isError

/-- All that is declared so far. -/
structure Declarations where
  registry : Registry
  scope : Scope

namespace Declarations

def empty : Declarations := ⟨.empty, .empty⟩

/-- Adds what a document declares, its components before its bindings. -/
def add (ds : Declarations) (d : Document) : Except DeclarationError Declarations :=
  match ds.registry.collect d.components with
  | (_, some e) => .error e
  | (registry, none) =>
    match ds.scope.collect d.bindings with
    | (_, some e) => .error e
    | (scope, none) => .ok ⟨registry, scope⟩

/-- The document that a source writes, and the declarations with those of the document added. -/
def read (ds : Declarations) (origin : Origin) (source : String) :
    Except CompileError (Document × Declarations) :=
  match Document.parse source with
  | .error errors => .error (.malformed origin errors)
  | .ok d =>
    match ds.add d with
    | .error e => .error (.declaration origin e)
    | .ok ds' => .ok (d, ds')

/-- Reads component sources in order, the first of which has this index. Their markup is ignored. -/
def readAll : Declarations → Nat → List String → Except CompileError Declarations
  | ds, _, [] => .ok ds
  | ds, index, source :: rest =>
    match ds.read (.components index) source with
    | .error e => .error e
    | .ok (_, ds') => ds'.readAll (index + 1) rest

end Declarations

/-- The output for a document among declarations. -/
def Document.compile (d : Document) (ds : Declarations) (style : ListingStyle) : Compilation :=
  let resolutions := d.resolutions ds.registry ds.scope
  { generated := d.generate ds.registry resolutions style
    diagnostics := (resolutions.filterMap Resolution.diagnostic?).mergeSort fun a b =>
      decide (a.span.start ≤ b.span.start)
    resolutions := resolutions }

/-- Compiles a template with the component sources it uses. -/
def compile (template : String) (components : List String) (style : ListingStyle) :
    Except CompileError Compilation :=
  match Declarations.empty.readAll 0 components with
  | .error e => .error e
  | .ok ds =>
    match ds.read .template template with
    | .error e => .error e
    | .ok (d, ds') => .ok (d.compile ds' style)

end TypedMarkup
