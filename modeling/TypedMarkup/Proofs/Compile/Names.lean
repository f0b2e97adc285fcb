import TypedMarkup.Proofs.Compile.Reports
import TypedMarkup.Proofs.Document.Names
import TypedMarkup.Proofs.Inference.Slots
import TypedMarkup.Proofs.Listing.Openings

/-! # Names in a compilation

What sources declare is named, and so are the types in the slots of a site. A question mark is in no name:
in a listing it always stands for an argument that is not known.
-/
namespace TypedMarkup
set_option autoImplicit false

theorem Component.name_of_ofDecl {decl : ComponentDecl} {c : Component} (h : ofDecl decl = .ok c) :
    c.name = decl.name.value := by
  rw [ofDecl] at h
  split at h
  · cases h
  · split at h
    · cases h
    · cases h
      rfl

/-- The components have names, and the types of the bindings are made of names. -/
structure Declarations.Named (ds : Declarations) : Prop where
  component : ∀ c ∈ ds.registry.components, Token.IsName c.name
  binding : ∀ b ∈ ds.scope.bindings, b.2.Named

namespace Registry

theorem isName_of_declare {r r' : Registry} {decl : ComponentDecl} (h : r.declare decl = .ok r')
    (hNames : ∀ c ∈ r.components, Token.IsName c.name) (hDecl : Token.IsName decl.name.value) :
    ∀ c ∈ r'.components, Token.IsName c.name := by
  rw [declare] at h
  split at h
  case h_1 => cases h
  case h_2 c hOf =>
    split at h
    · cases h
    · cases h
      intro c' hc'
      rcases List.mem_append.mp hc' with hc' | hc'
      · exact hNames c' hc'
      · rw [List.mem_singleton.mp hc', Component.name_of_ofDecl hOf]
        exact hDecl

theorem isName_of_collect {decls : List ComponentDecl} (hDecls : ∀ decl ∈ decls, Token.IsName decl.name.value) :
    ∀ {r : Registry}, (∀ c ∈ r.components, Token.IsName c.name) →
      ∀ c ∈ (r.collect decls).1.components, Token.IsName c.name := by
  induction decls with
  | nil => exact fun hNames => hNames
  | cons decl rest ih =>
    intro r hNames
    rw [collect]
    split
    case h_1 r' hDeclare =>
      apply ih fun decl' hDecl' => hDecls decl' (List.mem_cons_of_mem _ hDecl')
      exact isName_of_declare hDeclare hNames (hDecls decl List.mem_cons_self)
    case h_2 => exact hNames

end Registry

namespace Scope

variable {P : String × TypeExpr → Prop}

theorem forall_of_declare {s s' : Scope} {decl : BindingDecl} (h : s.declare decl = .ok s')
    (hAll : ∀ b ∈ s.bindings, P b) (hDecl : P (decl.name.value, decl.type.value)) : ∀ b ∈ s'.bindings, P b := by
  rw [declare] at h
  split at h
  · cases h
  · cases h
    intro b hb
    rcases List.mem_append.mp hb with hb | hb
    · exact hAll b hb
    · rw [List.mem_singleton.mp hb]
      exact hDecl

/-- What holds of the bindings of a scope and of those declared holds of what is collected. -/
theorem forall_of_collect {decls : List BindingDecl} (hDecls : ∀ decl ∈ decls, P (decl.name.value, decl.type.value)) :
    ∀ {s : Scope}, (∀ b ∈ s.bindings, P b) → ∀ b ∈ (s.collect decls).1.bindings, P b := by
  induction decls with
  | nil => exact fun hAll => hAll
  | cons decl rest ih =>
    intro s hAll
    rw [collect]
    split
    case h_1 s' hDeclare =>
      apply ih fun decl' hDecl' => hDecls decl' (List.mem_cons_of_mem _ hDecl')
      exact forall_of_declare hDeclare hAll (hDecls decl List.mem_cons_self)
    case h_2 => exact hAll

end Scope

namespace Declarations.Named

theorem empty : Named .empty := ⟨nofun, nofun⟩

theorem read {ds ds' : Declarations} {origin : Origin} {source : String} {d : Document} (h : ds.Named)
    (hRead : ds.read origin source = .ok (d, ds')) : ds'.Named := by
  have hSpelled := Document.spelled_of_parse (parse_of_read hRead)
  have hNames := Token.allNames_scan source
  have hComponents := Registry.isName_of_collect (fun _ hDecl => hSpelled.isName_of_component hNames hDecl) h.component
  have hBindings := Scope.forall_of_collect (fun _ hDecl => hSpelled.named_of_binding hNames hDecl) h.binding
  rw [Declarations.read] at hRead
  split at hRead
  case h_1 => cases hRead
  case h_2 d' _ =>
    split at hRead
    case h_1 => cases hRead
    case h_2 hAdd =>
      cases hRead
      rw [add] at hAdd
      split at hAdd
      case h_1 => cases hAdd
      case h_2 hRegistry =>
        split at hAdd
        case h_1 => cases hAdd
        case h_2 hScope =>
          cases hAdd
          rw [hRegistry] at hComponents
          rw [hScope] at hBindings
          exact ⟨hComponents, hBindings⟩

theorem readAll {sources : List String} :
    ∀ {ds ds' : Declarations} {index : Nat}, ds.Named → ds.readAll index sources = .ok ds' → ds'.Named := by
  induction sources with
  | nil =>
    intro ds ds' index h hRead
    cases hRead
    exact h
  | cons source rest ih =>
    intro ds ds' index h hRead
    rw [Declarations.readAll] at hRead
    split at hRead
    case h_1 => cases hRead
    case h_2 hFirst => exact ih (h.read hFirst) hRead

end Declarations.Named

theorem Token.IsName.not_mem {name : String} (h : IsName name) {c : Char} (hc : ¬ Lexeme.continuesWord c = true) :
    c ∉ name.toList :=
  fun hMem => hc (h.continuesWord c hMem)

/-- What is neither in a name nor one of the signs between names is in no type. -/
theorem TypeExpr.Named.not_mem {t : TypeExpr} (h : t.Named) {c : Char} (hc : ¬ Lexeme.continuesWord c = true)
    (hSigns : c ∉ "<>[], ".toList) : c ∉ t.display.toList :=
  not_mem_display hSigns fun n hn => (h n hn).not_mem hc

section Sites

variable {source : String} {d : Document} {ds : Declarations} {tag : Tag} {c : Component}

/-- A type argument is made of names that the source writes, or of those in the type of a binding. -/
theorem Document.named_or_bound_of_mem_args {scope : Scope} (h : parse source = .ok d) (hTag : tag ∈ d.tags)
    {t : TypeExpr} (ht : some t ∈ (c.resolve tag.attributes tag.span scope).args) :
    t.Named ∨ ∃ b ∈ scope.bindings, t.names ⊆ b.2.names := by
  obtain ⟨a, ha, hOwn | ⟨actual, hActual, hPart⟩⟩ := Component.exists_supplies_of_mem_args ht
  · exact .inl ((spelled_of_parse h).named_of_attribute (Token.allNames_scan source) hTag ha hOwn)
  · rcases AttributeValue.bound_or_named_of_staticType? hActual with ⟨b, hb, rfl⟩ | hNamed
    · exact .inr ⟨b, hb, hPart⟩
    · exact .inl fun n hn => hNamed n (hPart hn)

theorem Document.named_of_mem_args {scope : Scope} (h : parse source = .ok d)
    (hScope : ∀ b ∈ scope.bindings, b.2.Named) (hTag : tag ∈ d.tags) {t : TypeExpr}
    (ht : some t ∈ (c.resolve tag.attributes tag.span scope).args) : t.Named := by
  rcases named_or_bound_of_mem_args h hTag ht with hNamed | ⟨b, hb, hPart⟩
  · exact hNamed
  · exact fun n hn => hScope b hb n (hPart hn)

theorem Document.question_mem_type_iff (h : parse source = .ok d) (hNamed : ds.Named) (hTag : tag ∈ d.tags)
    (hc : ds.registry.get? tag.name.value = some c) :
    '?' ∈ (c.resolve tag.attributes tag.span ds.scope).type.toList ↔
      none ∈ (c.resolve tag.attributes tag.span ds.scope).args := by
  have hName := hNamed.component c (List.mem_of_find?_eq_some hc)
  exact question_mem_componentType_iff (hName.not_mem (by decide)) fun t ht =>
    (named_of_mem_args h hNamed.binding hTag ht).not_mem (by decide) (by decide)

end Sites
end TypedMarkup
