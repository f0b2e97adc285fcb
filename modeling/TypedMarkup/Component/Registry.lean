import TypedMarkup.Component.Basic

/-! # Registries and scopes

The components and the typed bindings declared so far. A name once declared keeps its meaning; a
declaration that repeats a name changes nothing and ends the collection it is part of.
-/
namespace TypedMarkup
set_option autoImplicit false

structure Registry where
  components : List Component

namespace Registry

def empty : Registry := ⟨[]⟩

def get? (r : Registry) (name : String) : Option Component := r.components.find? fun c => c.name = name

def contains (r : Registry) (name : String) : Bool := (r.get? name).isSome

theorem contains_eq_true_iff {r : Registry} {name : String} :
    r.contains name = true ↔ name ∈ r.components.map Component.name := by
  simp [contains, get?]

/-- The declared names in ascending order. -/
def names (r : Registry) : List String :=
  (r.components.map Component.name).mergeSort fun a b => decide (a ≤ b)

def declare (r : Registry) (decl : ComponentDecl) : Except DeclarationError Registry :=
  match Component.ofDecl decl with
  | .error e => .error e
  | .ok c =>
    if r.contains c.name then .error (.component c.name decl.name.span)
    else .ok ⟨r.components ++ [c]⟩

/-- Declares in order up to the first declaration that fails; those before it stay. -/
def collect : Registry → List ComponentDecl → Registry × Option DeclarationError
  | r, [] => (r, none)
  | r, decl :: rest =>
    match r.declare decl with
    | .ok r' => r'.collect rest
    | .error e => (r, some e)

end Registry

structure Scope where
  bindings : List (String × TypeExpr)

namespace Scope

def empty : Scope := ⟨[]⟩

def get? (s : Scope) (name : String) : Option TypeExpr := s.bindings.lookup name

def declare (s : Scope) (decl : BindingDecl) : Except DeclarationError Scope :=
  if (s.get? decl.name.value).isSome then .error (.binding decl.name.value decl.name.span)
  else .ok ⟨s.bindings ++ [(decl.name.value, decl.type.value)]⟩

/-- Declares in order up to the first declaration that fails; those before it stay. -/
def collect : Scope → List BindingDecl → Scope × Option DeclarationError
  | s, [] => (s, none)
  | s, decl :: rest =>
    match s.declare decl with
    | .ok s' => s'.collect rest
    | .error e => (s, some e)

end Scope
end TypedMarkup
