import TypedMarkup.Component.Problem
import TypedMarkup.Component.Registry
import TypedMarkup.Document.Parse

/-! # Resolving usage sites

A usage site gives all type arguments by attributes named after the type parameters, or none and
leaves them to be inferred from the types of the values. Giving only some is a problem, and nothing is
inferred then.
-/
namespace TypedMarkup
set_option autoImplicit false

namespace AttributeValue

/-- The type that a value names: a type itself, or a text that is one whole type. -/
def namedType? : AttributeValue → Option TypeExpr
  | type t => some t
  | text content => TypeExpr.parse? content
  | _ => none

/-- The type that a value has, where the scope tells. -/
def staticType? (scope : Scope) : AttributeValue → Option TypeExpr
  | text _ => some (.named "string")
  | integer _ => some (.named "int")
  | float _ => some (.named "double")
  | truth _ => some (.named "bool")
  | binding name => scope.get? name
  | type t => if t.isSimple then scope.get? t.name else none

end AttributeValue

/-- The first attribute of a name. -/
def Attribute.find? (attributes : List Attribute) (name : String) : Option Attribute :=
  attributes.find? fun a => a.name.value = name

inductive Outcome where
  | notGeneric
  | explicit
  | inferred
  | failed (p : Problem)
deriving DecidableEq

def Outcome.isFailure : Outcome → Bool
  | failed _ => true
  | _ => false

/-- A usage site with an argument, known or not, for each type parameter. -/
structure Resolution where
  component : String
  span : Span
  args : List (Option TypeExpr)
  outcome : Outcome
deriving DecidableEq

/-- The one diagnostic of a site that fails. -/
def Resolution.diagnostic? (r : Resolution) : Option Diagnostic :=
  match r.outcome with
  | .failed p => some ⟨p, r.component, r.span⟩
  | _ => none

namespace Component

/-- The type arguments given by attributes. Of attributes with one name only the first counts. -/
def explicitArgs (c : Component) (attributes : List Attribute) : List (Option TypeExpr) :=
  c.typeParams.map fun param =>
    (Attribute.find? attributes param).bind fun a => a.value.value.namedType?

/-- The type parameters whose argument is not known. -/
def unbound (c : Component) (args : List (Option TypeExpr)) : List String :=
  ((c.typeParams.zip args).filter fun (_, arg) => arg.isNone).map Prod.fst

/-- The declared type and the value's type, for an attribute that can tell about type parameters. -/
def fact? (c : Component) (scope : Scope) (a : Attribute) : Option (TypeExpr × TypeExpr) :=
  match c.param? a.name.value with
  | none => none
  | some param =>
    if c.typeParams.any param.type.mentions then
      (a.value.value.staticType? scope).map fun actual => (param.type, actual)
    else none

/-- What the attributes say about the type parameters, taken in order up to the first conflict. -/
def infer (c : Component) (attributes : List Attribute) (scope : Scope) : Except Conflict Assignment :=
  let facts := attributes.filterMap (c.fact? scope)
  Assignment.unifyArgs c.typeParams .empty (facts.map Prod.fst) (facts.map Prod.snd)

/-- The arguments and the outcome of a site with these attributes. -/
def resolveArgs (c : Component) (attributes : List Attribute) (scope : Scope) :
    List (Option TypeExpr) × Outcome :=
  let given := c.explicitArgs attributes
  if !c.isGeneric then ([], .notGeneric)
  else if given.all Option.isSome then (given, .explicit)
  else if given.any Option.isSome then (given, .failed (.missing (c.unbound given)))
  else
    match c.infer attributes scope with
    | .error conflict => (given, .failed (.conflict conflict))
    | .ok found =>
      let args := c.typeParams.map found
      if args.all Option.isSome then (args, .inferred)
      else (args, .failed (.underspecified (c.unbound args)))

def resolve (c : Component) (attributes : List Attribute) (span : Span) (scope : Scope) : Resolution :=
  let (args, outcome) := c.resolveArgs attributes scope
  ⟨c.name, span, args, outcome⟩

/-- Whether an attribute gives a type argument and is not passed to the component. -/
def isTypeArgument (c : Component) (a : Attribute) : Bool :=
  c.hasTypeParam a.name.value && a.value.value.namedType?.isSome

end Component

mutual
/-- The usage sites in a node, the node itself before its children. -/
def Node.resolutions (registry : Registry) (scope : Scope) : Node → List Resolution
  | .element span name attributes children _ =>
    (match registry.get? name.value with
      | some c => [c.resolve attributes span scope]
      | none => []) ++ Node.resolutionsIn registry scope children
  | .text _ _ => []
  | .expression _ _ => []

def Node.resolutionsIn (registry : Registry) (scope : Scope) : List Node → List Resolution
  | [] => []
  | node :: rest => node.resolutions registry scope ++ Node.resolutionsIn registry scope rest
end

/-- Every usage site of a document, in the order of the source. -/
def Document.resolutions (d : Document) (registry : Registry) (scope : Scope) : List Resolution :=
  Node.resolutionsIn registry scope d.markup

end TypedMarkup
