import TypedMarkup.Proofs.Document.Relocation

/-! # Declaring at other places

Declarations that are moved declare the same components and bindings, or are refused for the same reason, with what
they give moved in the same way.
-/
namespace TypedMarkup
set_option autoImplicit false

variable (f : Nat → Nat)

def DeclarationError.moved : DeclarationError → DeclarationError
  | component n s => component n (s.moved f)
  | typeParam c n s => typeParam c n (s.moved f)
  | param c n s => param c n (s.moved f)
  | binding n s => binding n (s.moved f)

def Registry.moved (r : Registry) : Registry := ⟨r.components.map (Component.moved f)⟩

def Declarations.moved (ds : Declarations) : Declarations := ⟨ds.registry.moved f, ds.scope⟩

/-- A value or an error, moved. -/
def movedResult {α : Type} (g : α → α) : Except DeclarationError α → Except DeclarationError α
  | .ok a => .ok (g a)
  | .error e => .error (e.moved f)

theorem firstRepeated?_moved (seen : List String) (names : List Identifier) :
    firstRepeated? seen (names.map (Located.moved f)) = (firstRepeated? seen names).map (Located.moved f) := by
  induction names generalizing seen with
  | nil => rfl
  | cons i rest ih =>
    rw [List.map_cons, firstRepeated?, firstRepeated?]
    change (if i.value ∈ seen then _ else firstRepeated? (i.value :: seen) _) = _
    rw [ih]
    split <;> rfl

namespace Component

theorem ofDecl_moved (decl : ComponentDecl) : ofDecl (decl.moved f) = movedResult f (moved f) (ofDecl decl) := by
  have hParams : (decl.params.map (ParamDecl.moved f)).map ParamDecl.name =
      (decl.params.map ParamDecl.name).map (Located.moved f) := by
    rw [List.map_map, List.map_map]
    rfl
  have hDefined : (decl.params.map (ParamDecl.moved f)).map (fun p => (⟨p.name.value, p.type.value⟩ : Parameter)) =
      decl.params.map fun p => ⟨p.name.value, p.type.value⟩ := by
    rw [List.map_map]
    rfl
  rw [ofDecl, ofDecl, ComponentDecl.moved]
  dsimp only
  rw [firstRepeated?_moved, hParams, firstRepeated?_moved, Located.map_value_map_moved, hDefined]
  cases firstRepeated? [] decl.typeParams with
  | some i => rfl
  | none =>
    cases firstRepeated? [] (decl.params.map ParamDecl.name) with
    | some i => rfl
    | none => rfl

end Component

namespace Registry

theorem get?_moved (r : Registry) (name : String) : (r.moved f).get? name = (r.get? name).map (Component.moved f) := by
  rw [get?, moved, List.find?_map]
  rfl

theorem contains_moved (r : Registry) (name : String) : (r.moved f).contains name = r.contains name := by
  rw [contains, get?_moved, Option.isSome_map]
  rfl

theorem declare_moved (r : Registry) (decl : ComponentDecl) :
    (r.moved f).declare (decl.moved f) = movedResult f (moved f) (r.declare decl) := by
  rw [declare, declare, Component.ofDecl_moved]
  cases Component.ofDecl decl with
  | error e => rfl
  | ok c =>
    change (if (r.moved f).contains c.name = true then _ else _) = _
    rw [contains_moved]
    dsimp only
    split
    · rfl
    · simp [movedResult, moved]

theorem collect_moved (r : Registry) (decls : List ComponentDecl) :
    (r.moved f).collect (decls.map (ComponentDecl.moved f)) =
      ((r.collect decls).1.moved f, (r.collect decls).2.map (DeclarationError.moved f)) := by
  induction decls generalizing r with
  | nil => rfl
  | cons decl rest ih =>
    rw [List.map_cons, collect, collect, declare_moved]
    cases r.declare decl with
    | ok r' => exact ih r'
    | error e => rfl

end Registry

namespace Scope

theorem declare_moved (s : Scope) (decl : BindingDecl) :
    s.declare (decl.moved f) = movedResult f id (s.declare decl) := by
  rw [declare, declare]
  change (if (s.get? decl.name.value).isSome = true then _ else _) = _
  split <;> rfl

theorem collect_moved (s : Scope) (decls : List BindingDecl) :
    s.collect (decls.map (BindingDecl.moved f)) =
      ((s.collect decls).1, (s.collect decls).2.map (DeclarationError.moved f)) := by
  induction decls generalizing s with
  | nil => rfl
  | cons decl rest ih =>
    rw [List.map_cons, collect, collect, declare_moved]
    cases s.declare decl with
    | ok s' => exact ih s'
    | error e => rfl

end Scope

namespace Document

theorem components_moved (d : Document) : (d.moved f).components = d.components.map (ComponentDecl.moved f) := by
  rw [components, moved, components, List.filterMap_map, List.map_filterMap]
  congr 1
  funext i
  cases i <;> rfl

theorem bindings_moved (d : Document) : (d.moved f).bindings = d.bindings.map (BindingDecl.moved f) := by
  rw [bindings, moved, bindings, List.filterMap_map, List.map_filterMap]
  congr 1
  funext i
  cases i <;> rfl

end Document

namespace Declarations

theorem add_moved (ds : Declarations) (d : Document) :
    (ds.moved f).add (d.moved f) = movedResult f (moved f) (ds.add d) := by
  rw [add, add, Document.components_moved, Document.bindings_moved, moved]
  dsimp only
  rw [Registry.collect_moved, Scope.collect_moved]
  obtain ⟨registry, error⟩ := ds.registry.collect d.components
  obtain ⟨scope, error'⟩ := ds.scope.collect d.bindings
  cases error with
  | some e => rfl
  | none =>
    cases error' with
    | some e => rfl
    | none => rfl

theorem alike_of_moved_eq {ds ds' : Declarations} (h : ds.moved nowhere = ds'.moved nowhere) : ds.Alike ds' where
  component name := by
    rw [← Registry.get?_moved, ← Registry.get?_moved]
    have hRegistry := congrArg Declarations.registry h
    exact congrArg (fun r => Registry.get? r name) hRegistry
  binding name := by
    have hScope := congrArg Declarations.scope h
    exact congrArg (fun s => Scope.get? s name) hScope

end Declarations
end TypedMarkup
