import TypedMarkup.Document.Basic

/-! # Components

What a declaration defines once its names are known to be distinct, and what can be wrong with a
declaration.
-/
namespace TypedMarkup
set_option autoImplicit false

structure Parameter where
  name : String
  type : TypeExpr
deriving DecidableEq

structure Component where
  name : String
  typeParams : List String
  params : List Parameter
  span : Span
deriving DecidableEq

/-- A name declared a second time, with the place of the repetition. -/
inductive DeclarationError where
  | component (name : String) (span : Span)
  | typeParam (component name : String) (span : Span)
  | param (component name : String) (span : Span)
  | binding (name : String) (span : Span)
deriving DecidableEq

namespace DeclarationError

def span : DeclarationError → Span
  | component _ s => s
  | typeParam _ _ s => s
  | param _ _ s => s
  | binding _ s => s

def message : DeclarationError → String
  | component n _ => "duplicate component definition: " ++ n
  | typeParam c n _ => "duplicate type parameter " ++ n ++ " on component " ++ c
  | param c n _ => "duplicate parameter " ++ n ++ " on component " ++ c
  | binding n _ => "duplicate binding: " ++ n

/-- What is written at the place of the repetition. -/
def label : DeclarationError → String
  | component _ _ => "component already declared"
  | typeParam _ _ _ => "type parameter repeated here"
  | param _ _ _ => "parameter repeated here"
  | binding _ _ => "binding already declared"

end DeclarationError

/-- The first identifier whose name is among those seen or stands earlier in the list. -/
def firstRepeated? : List String → List Identifier → Option Identifier
  | _, [] => none
  | seen, i :: rest => if i.value ∈ seen then some i else firstRepeated? (i.value :: seen) rest

theorem firstRepeated?_eq_none_iff {seen : List String} {names : List Identifier} :
    firstRepeated? seen names = none ↔
      (names.map Located.value).Nodup ∧ ∀ i ∈ names, i.value ∉ seen := by
  induction names generalizing seen with
  | nil => simp [firstRepeated?]
  | cons i rest ih =>
    rw [firstRepeated?]
    split
    case isTrue h => simp [h]
    case isFalse h =>
      rw [ih]
      simp only [List.map_cons, List.nodup_cons, List.mem_map, List.mem_cons, not_or, forall_eq_or_imp]
      constructor
      · rintro ⟨hNodup, hFresh⟩
        exact ⟨⟨fun ⟨j, hj, hEq⟩ => (hFresh j hj).1 hEq, hNodup⟩, h, fun j hj => (hFresh j hj).2⟩
      · rintro ⟨⟨hNew, hNodup⟩, -, hFresh⟩
        exact ⟨hNodup, fun j hj => ⟨fun hEq => hNew ⟨j, hj, hEq⟩, hFresh j hj⟩⟩

namespace Component

/-- The component that a declaration defines. Type parameters are examined before parameters. -/
def ofDecl (decl : ComponentDecl) : Except DeclarationError Component :=
  match firstRepeated? [] decl.typeParams with
  | some i => .error (.typeParam decl.name.value i.value i.span)
  | none =>
    match firstRepeated? [] (decl.params.map ParamDecl.name) with
    | some i => .error (.param decl.name.value i.value i.span)
    | none => .ok {
        name := decl.name.value
        typeParams := decl.typeParams.map Located.value
        params := decl.params.map fun p => ⟨p.name.value, p.type.value⟩
        span := decl.span }

def isGeneric (c : Component) : Bool := !c.typeParams.isEmpty

def param? (c : Component) (name : String) : Option Parameter := c.params.find? fun p => p.name = name

def typeParamIndex? (c : Component) (name : String) : Option Nat := c.typeParams.findIdx? (· = name)

def hasTypeParam (c : Component) (name : String) : Bool := c.typeParams.contains name

end Component
end TypedMarkup
