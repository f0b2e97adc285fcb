import TypedMarkup.Span
import TypedMarkup.Text.Quoted
import TypedMarkup.Token.Basic
import TypedMarkup.TypeExpr

/-! # Documents

Component declarations, typed bindings and markup, in the order of the source.
-/
namespace TypedMarkup
set_option autoImplicit false

abbrev Identifier := Located String

inductive AttributeValue where
  | text (content : String)
  | integer (n : Int64)
  | float (x : Binary64)
  | truth (b : Bool)
  /-- A type, or the name of a binding. -/
  | type (t : TypeExpr)
  | binding (name : String)
deriving DecidableEq

/-- The value as generated code writes it. -/
def AttributeValue.code : AttributeValue → String
  | text content => Text.quoted content
  | integer n => toString n.toInt
  | float x => NumberLayout.code.write x
  | truth true => "true"
  | truth false => "false"
  | type t => t.display
  | binding name => name

structure Attribute where
  name : Identifier
  value : Located AttributeValue
  span : Span
deriving DecidableEq

inductive Node where
  /-- An element that closes itself has no closing name. -/
  | element (span : Span) (name : Identifier) (attributes : List Attribute) (children : List Node)
      (closing : Option Identifier)
  | text (span : Span) (content : String)
  | expression (span : Span) (name : String)

namespace Node

mutual
def decEq : (node other : Node) → Decidable (node = other)
  | element s n as children c, element s' n' as' children' c' =>
    match decEqIn children children' with
    | isTrue hChildren =>
      decidable_of_iff (s = s' ∧ n = n' ∧ as = as' ∧ c = c') (by simp [hChildren])
    | isFalse hChildren => isFalse (by rintro ⟨⟩; exact hChildren rfl)
  | text s content, text s' content' => decidable_of_iff (s = s' ∧ content = content') (by simp)
  | expression s n, expression s' n' => decidable_of_iff (s = s' ∧ n = n') (by simp)
  | element .., text .. => isFalse nofun
  | element .., expression .. => isFalse nofun
  | text .., element .. => isFalse nofun
  | text .., expression .. => isFalse nofun
  | expression .., element .. => isFalse nofun
  | expression .., text .. => isFalse nofun

def decEqIn : (nodes others : List Node) → Decidable (nodes = others)
  | [], [] => isTrue rfl
  | [], _ :: _ => isFalse nofun
  | _ :: _, [] => isFalse nofun
  | node :: rest, other :: others =>
    match decEq node other, decEqIn rest others with
    | isTrue h, isTrue h' => isTrue (by rw [h, h'])
    | isFalse h, _ => isFalse (by rintro ⟨⟩; exact h rfl)
    | _, isFalse h => isFalse (by rintro ⟨⟩; exact h rfl)
end

instance : DecidableEq Node := decEq

end Node

structure ParamDecl where
  name : Identifier
  type : Located TypeExpr
  span : Span
deriving DecidableEq

structure ComponentDecl where
  name : Identifier
  typeParams : List Identifier
  params : List ParamDecl
  span : Span
deriving DecidableEq

structure BindingDecl where
  name : Identifier
  type : Located TypeExpr
  span : Span
deriving DecidableEq

inductive Item where
  | component (decl : ComponentDecl)
  | binding (decl : BindingDecl)
  | markup (node : Node)
deriving DecidableEq

structure Document where
  items : List Item
deriving DecidableEq

namespace Node

def span : Node → Span
  | element s _ _ _ _ => s
  | text s _ => s
  | expression s _ => s

mutual
/-- The elements whose closing tag has another name, as opening and closing name, parents first. -/
def mismatches : Node → List (Identifier × Identifier)
  | element _ name _ children closing =>
    (match closing with
      | some close => if close.value = name.value then [] else [(name, close)]
      | none => []) ++ mismatchesIn children
  | text _ _ => []
  | expression _ _ => []

def mismatchesIn : List Node → List (Identifier × Identifier)
  | [] => []
  | node :: rest => mismatches node ++ mismatchesIn rest
end

end Node

namespace Document

def components (d : Document) : List ComponentDecl :=
  d.items.filterMap fun
    | .component decl => some decl
    | _ => none

def bindings (d : Document) : List BindingDecl :=
  d.items.filterMap fun
    | .binding decl => some decl
    | _ => none

/-- The markup outside every element. -/
def markup (d : Document) : List Node :=
  d.items.filterMap fun
    | .markup node => some node
    | _ => none

end Document
end TypedMarkup
