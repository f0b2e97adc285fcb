import TypedMarkup.Document.Basic
import TypedMarkup.Reader

/-! # The grammar of documents

Readers for types, declarations and markup. Where two readings are possible, the first that succeeds
is taken: an angle bracket behind a type name begins type arguments if they can be read to the end.
-/
namespace TypedMarkup.Grammar
set_option autoImplicit false
open Reader

def identifier : Reader Identifier := located name

/-- A name, type arguments between angle brackets, and array suffixes. -/
def typeExpr : Reader TypeExpr :=
  fix fun typeExpr => do
    let head ← name
    let args ← maybe (between .less .greater (separated .comma typeExpr))
    let suffixes ← many (do
      mark .bracketOpen
      mark .bracketClose)
    return suffixes.foldl (fun t _ => t.array) (.app head (args.getD []))

def typeParams : Reader (List Identifier) := do
  let params ← maybe (between .less .greater (do
    let params ← separated .comma identifier
    let _ ← maybe (mark .comma)
    return params))
  return params.getD []

def paramDecl : Reader ParamDecl :=
  spanning (do
    keyword .param
    let name ← identifier
    mark .colon
    let type ← located typeExpr
    return fun span => ⟨name, type, span⟩)

def componentDecl : Reader ComponentDecl :=
  spanning (do
    keyword .component
    let name ← identifier
    let typeParams ← typeParams
    let params ← between .braceOpen .braceClose (many paramDecl)
    return fun span => ⟨name, typeParams, params, span⟩)

def bindingDecl : Reader BindingDecl :=
  spanning (do
    keyword .binding
    let name ← identifier
    mark .colon
    let type ← located typeExpr
    return fun span => ⟨name, type, span⟩)

/-- A name behind an at sign. -/
def reference : Reader String := do
  mark .atSign
  name

def literal : Reader AttributeValue :=
  satisfy none fun
    | .text content => some (.text content)
    | .integer n => some (.integer n)
    | .float x => some (.float x)
    | .keyword .yes => some (.truth true)
    | .keyword .no => some (.truth false)
    | _ => none

def attributeValue : Reader AttributeValue :=
  orElse literal (orElse (do return .binding (← reference)) (do return .type (← typeExpr)))

/-- A name with a value; a bare name has the value true. -/
def tagAttribute : Reader Attribute :=
  spanning (do
    let name ← identifier
    let value ← maybe (do
      mark .equals
      located attributeValue)
    return fun span => ⟨name, value.getD ⟨.truth true, name.span⟩, span⟩)

def textNode : Reader Node :=
  spanning (satisfy none fun
    | .text content => some fun span => .text span content
    | _ => none)

def expressionNode : Reader Node :=
  spanning (do
    let name ← reference
    return fun span => .expression span name)

/-- The end of a tag without children, or the children and the closing tag. -/
def elementBody (node : Reader Node) : Reader (List Node × Option Identifier) :=
  orElse
    (do
      mark .slashGreater
      return ([], none))
    (do
      mark .greater
      let children ← many node
      let close ← between .lessSlash .greater identifier
      return (children, some close))

def elementNode (node : Reader Node) : Reader Node :=
  spanning (do
    mark .less
    let name ← identifier
    let attributes ← many tagAttribute
    let (children, closing) ← elementBody node
    return fun span => .element span name attributes children closing)

def node : Reader Node :=
  fix fun node => orElse (elementNode node) (orElse textNode expressionNode)

def item : Reader Item :=
  orElse (do return .component (← componentDecl))
    (orElse (do return .binding (← bindingDecl)) (do return .markup (← node)))

def document : Reader Document := do
  let items ← many item
  endOfSource
  return ⟨items⟩

end TypedMarkup.Grammar
