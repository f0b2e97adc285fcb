import TypedMarkup.Compile
import TypedMarkup.Proofs.Document.Placement
import TypedMarkup.Proofs.Listing.Positions

/-! # Sites at other places

How a site is resolved and written depends on what is declared and on what stands in its tag, and not on where
either stands. A document that is moved has the same sites at other places and the same listing.
-/
namespace TypedMarkup
set_option autoImplicit false

def Component.moved (f : Nat → Nat) (c : Component) : Component := { c with span := c.span.moved f }

def Tag.moved (f : Nat → Nat) (tag : Tag) : Tag :=
  ⟨tag.span.moved f, tag.name.moved f, tag.attributes.map (Attribute.moved f)⟩

def Resolution.moved (f : Nat → Nat) (r : Resolution) : Resolution := { r with span := r.span.moved f }

def Diagnostic.moved (f : Nat → Nat) (d : Diagnostic) : Diagnostic := { d with span := d.span.moved f }

theorem Resolution.diagnostic?_moved (f : Nat → Nat) (r : Resolution) :
    (r.moved f).diagnostic? = r.diagnostic?.map (Diagnostic.moved f) := by
  obtain ⟨component, span, args, outcome⟩ := r
  cases outcome <;> rfl

/-- Under every name the same component, though it may be declared elsewhere, and the same binding. -/
structure Declarations.Alike (ds ds' : Declarations) : Prop where
  component : ∀ name, (ds.registry.get? name).map (Component.moved nowhere) =
    (ds'.registry.get? name).map (Component.moved nowhere)
  binding : ∀ name, ds.scope.get? name = ds'.scope.get? name

namespace Component

variable {c c' : Component}

theorem explicitArgs_moved (c : Component) (attributes : List Attribute) (f : Nat → Nat) :
    c.explicitArgs (attributes.map (Attribute.moved f)) = c.explicitArgs attributes := by
  rw [explicitArgs, explicitArgs]
  apply List.map_congr_left
  intro param _
  rw [Attribute.find?, List.find?_map, Option.bind_map]
  rfl

theorem infer_moved (c : Component) (attributes : List Attribute) (scope : Scope) (f : Nat → Nat) :
    c.infer (attributes.map (Attribute.moved f)) scope = c.infer attributes scope := by
  rw [infer, infer, List.filterMap_map]
  rfl

theorem resolveArgs_moved (c : Component) (attributes : List Attribute) (scope : Scope) (f : Nat → Nat) :
    c.resolveArgs (attributes.map (Attribute.moved f)) scope = c.resolveArgs attributes scope := by
  rw [resolveArgs, resolveArgs, explicitArgs_moved, infer_moved]

theorem infer_congr_scope (c : Component) (attributes : List Attribute) {scope scope' : Scope}
    (h : ∀ name, scope.get? name = scope'.get? name) : c.infer attributes scope = c.infer attributes scope' := by
  have hStatic : ∀ v : AttributeValue, v.staticType? scope = v.staticType? scope' := by
    intro v
    cases v <;> simp only [AttributeValue.staticType?, h]
  have hFact : c.fact? scope = c.fact? scope' := by
    funext a
    rw [fact?, fact?, hStatic]
  rw [infer, infer, hFact]

theorem resolveArgs_congr (h : c.moved nowhere = c'.moved nowhere) (attributes : List Attribute)
    {scope scope' : Scope} (hScope : ∀ name, scope.get? name = scope'.get? name) :
    c.resolveArgs attributes scope = c'.resolveArgs attributes scope' := by
  have hScopes : c.resolveArgs attributes scope = c.resolveArgs attributes scope' := by
    rw [resolveArgs, resolveArgs, infer_congr_scope c attributes hScope]
  rw [hScopes]
  exact congrArg (fun c => c.resolveArgs attributes scope') h

theorem name_eq_of_moved_eq (h : c.moved nowhere = c'.moved nowhere) : c.name = c'.name := by
  have hName := congrArg Component.name h
  exact hName

theorem isTypeArgument_congr (h : c.moved nowhere = c'.moved nowhere) : c.isTypeArgument = c'.isTypeArgument := by
  have hSame := congrArg isTypeArgument h
  exact hSame

theorem resolve_moved (h : c.moved nowhere = c'.moved nowhere) (tag : Tag) {scope scope' : Scope}
    (hScope : ∀ name, scope.get? name = scope'.get? name) (f : Nat → Nat) :
    c.resolve (tag.moved f).attributes (tag.moved f).span scope =
      (c'.resolve tag.attributes tag.span scope').moved f := by
  have hArgs : c.resolveArgs (tag.moved f).attributes scope = c'.resolveArgs tag.attributes scope' :=
    (c.resolveArgs_moved tag.attributes scope f).trans (resolveArgs_congr h tag.attributes hScope)
  rw [resolve, hArgs, name_eq_of_moved_eq h]
  rfl

end Component

namespace Node

mutual
theorem tags_moved (f : Nat → Nat) : ∀ node : Node, (node.moved f).tags = node.tags.map (Tag.moved f)
  | element span name attributes children closing => by
    rw [moved, tags, tags, List.map_cons, tagsIn_movedIn f children]
    rfl
  | text _ _ => rfl
  | expression _ _ => rfl

theorem tagsIn_movedIn (f : Nat → Nat) :
    ∀ nodes : List Node, tagsIn (movedIn f nodes) = (tagsIn nodes).map (Tag.moved f)
  | [] => rfl
  | node :: rest => by
    rw [movedIn, tagsIn, tagsIn, List.map_append, tags_moved f node, tagsIn_movedIn f rest]
end

end Node

section Alike

variable {ds ds' : Declarations} (h : ds.Alike ds')
include h

namespace Declarations.Alike

/-- A name is registered in both, with the same component but for its place, or in neither. -/
theorem get?_cases (name : String) :
    (ds.registry.get? name = none ∧ ds'.registry.get? name = none) ∨
      ∃ c c', ds.registry.get? name = some c ∧ ds'.registry.get? name = some c' ∧
        c.moved nowhere = c'.moved nowhere := by
  have hSame := h.component name
  cases hGet : ds.registry.get? name with
  | none =>
    rw [hGet] at hSame
    exact .inl ⟨rfl, Option.map_eq_none_iff.mp hSame.symm⟩
  | some c =>
    rw [hGet] at hSame
    obtain ⟨c', hGet', hMoved⟩ := Option.map_eq_some_iff.mp hSame.symm
    exact .inr ⟨c, c', rfl, hGet', hMoved.symm⟩

theorem contains_eq (name : String) : ds.registry.contains name = ds'.registry.contains name := by
  rw [Registry.contains, Registry.contains]
  rcases h.get?_cases name with ⟨hNone, hNone'⟩ | ⟨c, c', hSome, hSome', -⟩
  · rw [hNone, hNone']
  · rw [hSome, hSome']
    rfl

end Declarations.Alike

theorem Tag.resolution?_moved (f : Nat → Nat) (tag : Tag) :
    (tag.moved f).resolution? ds.registry ds.scope =
      (tag.resolution? ds'.registry ds'.scope).map (Resolution.moved f) := by
  rw [resolution?, resolution?]
  change (ds.registry.get? tag.name.value).map _ = _
  rcases h.get?_cases tag.name.value with ⟨hNone, hNone'⟩ | ⟨c, c', hSome, hSome', hMoved⟩
  · rw [hNone, hNone']
    rfl
  · rw [hSome, hSome']
    exact congrArg some (Component.resolve_moved hMoved tag h.binding f)

theorem Node.siteCount_moved (f : Nat → Nat) (node : Node) :
    (node.moved f).siteCount ds.registry = node.siteCount ds'.registry := by
  rw [siteCount, siteCount, tags_moved, List.filter_map, List.length_map]
  congr 2
  funext tag
  exact h.contains_eq tag.name.value

theorem Node.resolutionsIn_movedIn (f : Nat → Nat) (nodes : List Node) :
    resolutionsIn ds.registry ds.scope (movedIn f nodes) =
      (resolutionsIn ds'.registry ds'.scope nodes).map (Resolution.moved f) := by
  rw [resolutionsIn_eq_filterMap_tagsIn, resolutionsIn_eq_filterMap_tagsIn, tagsIn_movedIn, List.filterMap_map,
    List.map_filterMap]
  congr 1
  funext tag
  exact tag.resolution?_moved h f

mutual
theorem Node.callsAt_moved (f : Nat → Nat) (resolved : Nat → Bool) : ∀ (node : Node) (position : Nat),
    (node.moved f).callsAt ds.registry ds.scope resolved position =
      node.callsAt ds'.registry ds'.scope resolved position
  | .text _ _, _ => rfl
  | .expression _ _, _ => rfl
  | .element span name attributes children closing, position => by
    have hInner := Node.callsAtIn_movedIn f resolved children
    have hCalls : (attributes.map (Attribute.moved f)).map Attribute.call = attributes.map Attribute.call := by
      rw [List.map_map]
      rfl
    rw [moved, callsAt, callsAt]
    change (match ds.registry.get? name.value with | none => _ | some c => _) = _
    rcases h.get?_cases name.value with ⟨hNone, hNone'⟩ | ⟨c, c', hSome, hSome', hMoved⟩
    · rw [hNone, hNone']
      simp only [Tag.plainCalls, hInner, hCalls]
      rfl
    · -- The two components differ in their places only, and no call writes a place.
      have hResolve := Component.resolve_moved hMoved ⟨span, name, attributes⟩ h.binding f
      have hKept : ((attributes.map (Attribute.moved f)).filter fun a => !c.isTypeArgument a).map Attribute.call =
          (attributes.filter fun a => !c'.isTypeArgument a).map Attribute.call := by
        rw [Component.isTypeArgument_congr hMoved, List.filter_map, List.map_map]
        rfl
      have hSites := congrArg Resolution.args hResolve
      have hArgs : (c.resolve (attributes.map (Attribute.moved f)) (span.moved f) ds.scope).args =
          (c'.resolve attributes span ds'.scope).args := hSites
      rw [hSome, hSome']
      simp only [Tag.plainCalls, Tag.componentCalls, hInner, hCalls, hKept, hArgs,
        Component.name_eq_of_moved_eq hMoved]
      rfl

theorem Node.callsAtIn_movedIn (f : Nat → Nat) (resolved : Nat → Bool) : ∀ (nodes : List Node) (position : Nat),
    callsAtIn ds.registry ds.scope resolved position (movedIn f nodes) =
      callsAtIn ds'.registry ds'.scope resolved position nodes
  | [], _ => rfl
  | node :: rest, position => by
    rw [movedIn, callsAtIn, callsAtIn, Node.siteCount_moved h f node, Node.callsAt_moved f resolved node position,
      Node.callsAtIn_movedIn f resolved rest _]
end

end Alike
end TypedMarkup
