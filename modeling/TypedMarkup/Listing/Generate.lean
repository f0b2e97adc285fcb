import TypedMarkup.Component.Resolution
import TypedMarkup.Listing.Basic

/-! # The listing of a document

Markup becomes calls in the order of the source. An element whose name is registered and whose site is
resolved becomes a component with its type arguments; every other element is written as it stands.
-/
namespace TypedMarkup
set_option autoImplicit false

/-- A component with its type arguments, a question mark for each that is not known. -/
def componentType (name : String) (args : List (Option TypeExpr)) : String :=
  if args.isEmpty then name
  else
    let texts := args.map fun
      | some t => t.display
      | none => "?"
    name ++ "<" ++ ", ".intercalate texts ++ ">"

/-- The resolution of the site that starts at an offset; of several the last. -/
def Resolution.at? (sites : List Resolution) (start : Nat) : Option Resolution :=
  sites.reverse.find? fun r => r.span.start = start

def Attribute.call (a : Attribute) : Call := .addAttribute a.name.value a.value.value

mutual
def Node.calls (registry : Registry) (sites : List Resolution) : Node → List Call
  | .text _ content => [.addContent (Text.quoted content)]
  | .expression _ name => [.addContent name]
  | .element span name attributes children _ =>
    match registry.get? name.value, Resolution.at? sites span.start with
    | some c, some site =>
      .openComponent (componentType c.name site.args) ::
        ((attributes.filter fun a => !c.isTypeArgument a).map Attribute.call ++
          (if children.isEmpty then []
            else .beginContent :: Node.callsIn registry sites children ++ [.endContent]) ++
          [.closeComponent])
    | _, _ =>
      .openElement name.value ::
        (attributes.map Attribute.call ++ Node.callsIn registry sites children ++ [.closeElement])

def Node.callsIn (registry : Registry) (sites : List Resolution) : List Node → List Call
  | [] => []
  | node :: rest => node.calls registry sites ++ Node.callsIn registry sites rest
end

def Document.calls (d : Document) (registry : Registry) (sites : List Resolution) : List Call :=
  Node.callsIn registry sites d.markup

/-- The generated code of a document. -/
def Document.generate (d : Document) (registry : Registry) (sites : List Resolution)
    (style : ListingStyle) : String :=
  style.write (d.calls registry sites)

end TypedMarkup
