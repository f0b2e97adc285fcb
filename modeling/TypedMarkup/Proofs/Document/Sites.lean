import TypedMarkup.Component.Resolution
import TypedMarkup.Proofs.Document.Tags

/-! # The usage sites of a document

The sites are the tags whose name is registered. In a document that was read from a source they start one
behind another, so that a site is known by where it starts.
-/
namespace TypedMarkup
set_option autoImplicit false

/-- The resolution of a tag, if its name is registered. -/
def Tag.resolution? (registry : Registry) (scope : Scope) (tag : Tag) : Option Resolution :=
  (registry.get? tag.name.value).map fun c => c.resolve tag.attributes tag.span scope

variable {registry : Registry} {scope : Scope}

theorem Registry.name_of_get?_eq_some {name : String} {c : Component} (h : registry.get? name = some c) :
    c.name = name := by
  simpa using List.find?_some h

theorem Tag.resolution?_isSome (tag : Tag) :
    (tag.resolution? registry scope).isSome = registry.contains tag.name.value := by
  rw [Tag.resolution?, Registry.contains, Option.isSome_map]

theorem Tag.resolution?_eq_some_iff {tag : Tag} {r : Resolution} :
    tag.resolution? registry scope = some r ↔
      ∃ c, registry.get? tag.name.value = some c ∧ r = c.resolve tag.attributes tag.span scope := by
  rw [Tag.resolution?, Option.map_eq_some_iff]
  simp only [eq_comm]

theorem Tag.span_of_resolution? {tag : Tag} {r : Resolution} (h : tag.resolution? registry scope = some r) :
    r.span = tag.span := by
  obtain ⟨c, -, rfl⟩ := Tag.resolution?_eq_some_iff.mp h
  rfl

mutual
theorem Node.resolutions_eq_filterMap_tags :
    ∀ node : Node, node.resolutions registry scope = node.tags.filterMap (Tag.resolution? registry scope)
  | .element span name attributes children closing => by
    rw [Node.resolutions, Node.tags, Node.resolutionsIn_eq_filterMap_tagsIn children, List.filterMap_cons,
      Tag.resolution?]
    cases registry.get? name.value <;> rfl
  | .text _ _ => rfl
  | .expression _ _ => rfl

theorem Node.resolutionsIn_eq_filterMap_tagsIn :
    ∀ nodes : List Node,
      Node.resolutionsIn registry scope nodes = (Node.tagsIn nodes).filterMap (Tag.resolution? registry scope)
  | [] => rfl
  | node :: rest => by
    rw [Node.resolutionsIn, Node.tagsIn, List.filterMap_append, Node.resolutions_eq_filterMap_tags node,
      Node.resolutionsIn_eq_filterMap_tagsIn rest]
end

theorem Document.resolutions_eq_filterMap_tags (d : Document) :
    d.resolutions registry scope = d.tags.filterMap (Tag.resolution? registry scope) :=
  Node.resolutionsIn_eq_filterMap_tagsIn d.markup

theorem Tag.starts_filterMap_sublist (tags : List Tag) :
    ((tags.filterMap (Tag.resolution? registry scope)).map fun r => r.span.start).Sublist
      (tags.map fun tag => tag.span.start) := by
  induction tags with
  | nil => exact .slnil
  | cons tag rest ih =>
    cases h : tag.resolution? registry scope with
    | none =>
      rw [List.filterMap_cons_none h]
      exact ih.cons _
    | some r =>
      rw [List.filterMap_cons_some h, List.map_cons, List.map_cons, Tag.span_of_resolution? h]
      exact ih.cons_cons _

theorem Document.parse_sites_increasing {source : String} {d : Document} (h : parse source = .ok d) :
    ((d.resolutions registry scope).map fun r => r.span.start).Pairwise (· < ·) := by
  rw [resolutions_eq_filterMap_tags]
  exact (parse_tags_increasing h).sublist (Tag.starts_filterMap_sublist d.tags)

end TypedMarkup
