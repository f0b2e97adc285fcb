import TypedMarkup.Component.Resolution
import TypedMarkup.Proofs.Document.Soundness
import TypedMarkup.Proofs.Document.Tags
import TypedMarkup.Proofs.Token.Bounds

/-! # The names in a document

What is declared in a source, and what is named in its types, are names.
-/
namespace TypedMarkup
set_option autoImplicit false
open Spelling

namespace TypeExpr

def Named (t : TypeExpr) : Prop := ∀ n ∈ t.names, Token.IsName n

theorem named_named {name : String} (h : Token.IsName name) : (named name).Named := by
  intro n hn
  rw [named, names_app] at hn
  obtain rfl := List.mem_singleton.mp hn
  exact h

theorem isName_arrayName : Token.IsName arrayName := by decide

theorem Spelled.named_of_allNames {t : TypeExpr} {ts : List Token} (h : t.Spelled ts) (hNames : Token.AllNames ts) :
    t.Named := by
  intro n hn
  rcases h.mem_of_mem_names hn with rfl | hMem
  · exact isName_arrayName
  · exact hNames n hMem

theorem named_of_parse? {source : String} {t : TypeExpr} (h : parse? source = some t) : t.Named :=
  (spelled_of_parse? h).named_of_allNames (Token.allNames_scan source)

end TypeExpr

namespace AttributeValue

variable {v : AttributeValue} {ts : List Token} {t : TypeExpr}

theorem Spelled.named_of_namedType? (h : v.Spelled ts) (hNames : Token.AllNames ts) (hType : v.namedType? = some t) :
    t.Named := by
  cases h with
  | text => exact TypeExpr.named_of_parse? hType
  | type hSpelled =>
    cases hType
    exact hSpelled.named_of_allNames hNames
  | integer => cases hType
  | float => cases hType
  | yes => cases hType
  | no => cases hType
  | binding => cases hType

/-- The type of a value is that of a binding, or the name of one that its kind of value has. -/
theorem bound_or_named_of_staticType? {scope : Scope} (h : v.staticType? scope = some t) :
    (∃ b ∈ scope.bindings, b.2 = t) ∨ t.Named := by
  have hGet : ∀ name, scope.get? name = some t → ∃ b ∈ scope.bindings, b.2 = t := by
    intro name hName
    obtain ⟨before, after, hSplit, -⟩ := List.lookup_eq_some_iff.mp hName
    exact ⟨(name, t), by simp [hSplit], rfl⟩
  cases v with
  | text content =>
    cases h
    exact .inr (TypeExpr.named_named (by decide))
  | integer n =>
    cases h
    exact .inr (TypeExpr.named_named (by decide))
  | float x =>
    cases h
    exact .inr (TypeExpr.named_named (by decide))
  | truth b =>
    cases h
    exact .inr (TypeExpr.named_named (by decide))
  | binding name => exact .inl (hGet name h)
  | type t' =>
    rw [staticType?] at h
    split at h
    · exact .inl (hGet _ h)
    · cases h

end AttributeValue

theorem Attribute.Spelled.exists_value {a : Attribute} {ts : List Token} (h : a.Spelled ts)
    (hValue : a.value.value ≠ .truth true) : ∃ own, a.value.value.Spelled own ∧ own ⊆ ts := by
  cases h with
  | bare hTrue => exact absurd hTrue hValue
  | valued hOwn => exact ⟨_, hOwn, by simp⟩

namespace Node

mutual
theorem Spelled.exists_attribute {tag : Tag} {a : Attribute} (ha : a ∈ tag.attributes) :
    ∀ {node : Node} {ts : List Token}, node.Spelled ts → tag ∈ node.tags → ∃ own, a.Spelled own ∧ own ⊆ ts
  | .text _ _, _, _, hTag => by cases hTag
  | .expression _ _, _, _, hTag => by cases hTag
  | .element _ _ _ children _, _, h, hTag => by
    rw [tags] at hTag
    cases h with
    | selfClosing hRow =>
      rcases List.mem_cons.mp hTag with rfl | hTag
      · obtain ⟨own, hOwn, hSub⟩ := hRow.exists_of_mem ha
        exact ⟨own, hOwn, fun t ht => by simp [hSub ht]⟩
      · cases hTag
    | closed hRow hChildren =>
      rcases List.mem_cons.mp hTag with rfl | hTag
      · obtain ⟨own, hOwn, hSub⟩ := hRow.exists_of_mem ha
        exact ⟨own, hOwn, fun t ht => by simp [hSub ht]⟩
      · obtain ⟨own, hOwn, hSub⟩ := Spelled.exists_attributeIn ha hChildren hTag
        exact ⟨own, hOwn, fun t ht => by simp [hSub ht]⟩

theorem Spelled.exists_attributeIn {tag : Tag} {a : Attribute} (ha : a ∈ tag.attributes) :
    ∀ {nodes : List Node} {ts : List Token}, Row Node.Spelled nodes ts → tag ∈ tagsIn nodes →
      ∃ own, a.Spelled own ∧ own ⊆ ts
  | [], _, _, hTag => by cases hTag
  | node :: rest, _, h, hTag => by
    rw [tagsIn] at hTag
    cases h with
    | cons head tail =>
      rcases List.mem_append.mp hTag with hTag | hTag
      · obtain ⟨own, hOwn, hSub⟩ := Spelled.exists_attribute ha head hTag
        exact ⟨own, hOwn, List.subset_append_of_subset_left _ hSub⟩
      · obtain ⟨own, hOwn, hSub⟩ := Spelled.exists_attributeIn ha tail hTag
        exact ⟨own, hOwn, List.subset_append_of_subset_right _ hSub⟩
end

end Node

namespace Document

variable {d : Document} {ts : List Token}

theorem Spelled.isName_of_component (h : d.Spelled ts) (hNames : Token.AllNames ts) {decl : ComponentDecl}
    (hDecl : decl ∈ d.components) : Token.IsName decl.name.value := by
  obtain ⟨_, ⟨_, _, -, -, rfl⟩, hSub⟩ := h.exists_of_mem_components hDecl
  exact hNames _ (hSub (by simp))

theorem Spelled.named_of_binding (h : d.Spelled ts) (hNames : Token.AllNames ts) {decl : BindingDecl}
    (hDecl : decl ∈ d.bindings) : decl.type.value.Named := by
  obtain ⟨_, ⟨type, hType, rfl⟩, hSub⟩ := h.exists_of_mem_bindings hDecl
  exact hType.named_of_allNames (hNames.mono fun t ht => hSub (by simp [ht]))

theorem Spelled.named_of_attribute (h : d.Spelled ts) (hNames : Token.AllNames ts) {tag : Tag} (hTag : tag ∈ d.tags)
    {a : Attribute} (ha : a ∈ tag.attributes) {t : TypeExpr} (hType : a.value.value.namedType? = some t) :
    t.Named := by
  rw [tags, Node.tagsIn_eq_flatMap, List.mem_flatMap] at hTag
  obtain ⟨node, hNode, hTag⟩ := hTag
  obtain ⟨own, hNodeSpelled, hSubNode⟩ := h.exists_of_mem_markup hNode
  obtain ⟨ownAttribute, hAttribute, hSubAttribute⟩ := hNodeSpelled.exists_attribute ha hTag
  have hValue : a.value.value ≠ .truth true := by
    intro hTrue
    rw [hTrue] at hType
    cases hType
  obtain ⟨ownValue, hSpelled, hSubValue⟩ := hAttribute.exists_value hValue
  exact hSpelled.named_of_namedType? (((hNames.mono hSubNode).mono hSubAttribute).mono hSubValue) hType

end Document
end TypedMarkup
