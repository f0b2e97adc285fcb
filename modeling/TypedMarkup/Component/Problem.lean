import TypedMarkup.Component.Unify
import TypedMarkup.Span

/-! # Problems at usage sites

Why the type arguments of a component are not known, and how that is reported.
-/
namespace TypedMarkup
set_option autoImplicit false

inductive Problem where
  /-- Some type arguments are given, but not these. -/
  | missing (params : List String)
  /-- No type arguments are given, and the values do not determine these. -/
  | underspecified (params : List String)
  | conflict (c : Conflict)
deriving DecidableEq

inductive Severity where
  | error
deriving DecidableEq

def Severity.describe : Severity → String
  | error => "error"

namespace Problem

def severity (_ : Problem) : Severity := .error

def code : Problem → String
  | missing _ => "CMP10000"
  | underspecified _ => "CMP10001"
  | conflict _ => "CMP10002"

def name : Problem → String
  | missing _ => "GenericComponentMissingTypeArgument"
  | underspecified _ => "GenericComponentTypeInferenceUnderspecified"
  | conflict _ => "GenericComponentTypeInferenceConflict"

/-- Names in single quotes, with commas between them. -/
def quotedNames (names : List String) : String :=
  ", ".intercalate (names.map fun n => "'" ++ n ++ "'")

/-- What is wrong with a use of the component of this name, and what would mend it. -/
def message (component : String) : Problem → String
  | missing params =>
    "The component '" ++ component ++ "' is missing required type arguments. " ++
      "Specify the missing types using the attributes: " ++ quotedNames params ++ "."
  | underspecified params =>
    "The type of component '" ++ component ++ "' cannot be inferred based on the values provided. " ++
      "Consider specifying the type arguments directly using the following attributes: " ++
      quotedNames params ++ "."
  | conflict c =>
    "The type argument '" ++ c.param ++ "' of component '" ++ component ++ "' was inferred as both '" ++
      c.first.display ++ "' and '" ++ c.second.display ++
      "'. Specify the type argument directly using the attribute: '" ++ c.param ++ "'."

end Problem

/-- A problem with the component used and the bytes of the usage site. -/
structure Diagnostic where
  problem : Problem
  component : String
  span : Span
deriving DecidableEq

namespace Diagnostic

def message (d : Diagnostic) : String := d.problem.message d.component

def isError (d : Diagnostic) : Bool := d.problem.severity = .error

def display (d : Diagnostic) : String :=
  d.problem.severity.describe ++ " " ++ d.problem.code ++ ": " ++ d.message

end Diagnostic
end TypedMarkup
