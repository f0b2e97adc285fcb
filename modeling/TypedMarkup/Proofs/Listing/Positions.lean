import Mathlib.Data.List.Nodup
import TypedMarkup.Listing.Generate
import TypedMarkup.Proofs.Document.Sites

/-! # Listings by position

The listing of a document finds the resolution of a site by where the site starts. For a document read
from a source that is the same as to count sites in the order of the source and to give each its own.
-/
namespace TypedMarkup
set_option autoImplicit false

namespace Tag

def plainCalls (tag : Tag) (inner : List Call) : List Call :=
  .openElement tag.name.value :: (tag.attributes.map Attribute.call ++ inner ++ [.closeElement])

/-- A tag written as a component, without the attributes that give type arguments. -/
def componentCalls (tag : Tag) (c : Component) (args : List (Option TypeExpr)) (inner : List Call) : List Call :=
  .openComponent (componentType c.name args) ::
    ((tag.attributes.filter fun a => !c.isTypeArgument a).map Attribute.call ++
      (if inner.isEmpty then [] else .beginContent :: inner ++ [.endContent]) ++ [.closeComponent])

end Tag

namespace Node

/-- How many of the elements in a node are registered. -/
def siteCount (registry : Registry) (node : Node) : Nat :=
  (node.tags.filter fun tag => registry.contains tag.name.value).length

mutual
/-- The calls of a node behind so many sites. A registered element counts as one site more, and is written
as a component with its own resolution if the site at its position is resolved. -/
def callsAt (registry : Registry) (scope : Scope) (resolved : Nat → Bool) (position : Nat) : Node → List Call
  | text _ content => [.addContent (Text.quoted content)]
  | expression _ name => [.addContent name]
  | element span name attributes children _ =>
    match registry.get? name.value with
    | none =>
      Tag.plainCalls ⟨span, name, attributes⟩ (callsAtIn registry scope resolved position children)
    | some c =>
      let inner := callsAtIn registry scope resolved (position + 1) children
      if resolved position then
        Tag.componentCalls ⟨span, name, attributes⟩ c (c.resolve attributes span scope).args inner
      else Tag.plainCalls ⟨span, name, attributes⟩ inner

def callsAtIn (registry : Registry) (scope : Scope) (resolved : Nat → Bool) (position : Nat) :
    List Node → List Call
  | [] => []
  | node :: rest =>
    callsAt registry scope resolved position node ++
      callsAtIn registry scope resolved (position + node.siteCount registry) rest
end

variable {registry : Registry} {scope : Scope}

theorem length_resolutions (node : Node) : (node.resolutions registry scope).length = node.siteCount registry := by
  rw [resolutions_eq_filterMap_tags, List.length_filterMap_eq_countP, siteCount, ← List.countP_eq_length_filter]
  simp only [Tag.resolution?_isSome]

theorem calls_ne_nil (sites : List Resolution) (node : Node) : node.calls registry sites ≠ [] := by
  cases node with
  | text _ _ => simp [calls]
  | expression _ _ => simp [calls]
  | element span name attributes children closing =>
    rw [calls]
    split <;> simp

theorem callsIn_isEmpty (sites : List Resolution) (nodes : List Node) :
    (callsIn registry sites nodes).isEmpty = nodes.isEmpty := by
  cases nodes with
  | nil => rfl
  | cons node rest =>
    rw [callsIn]
    simp [calls_ne_nil]

end Node

/-- Among sites that start one behind another, the start of a site leads to that site and no other. -/
theorem Resolution.at?_of_increasing {all sites : List Resolution}
    (hAll : (all.map fun r => r.span.start).Pairwise (· < ·)) (hSites : sites ⊆ all) {r : Resolution} (hr : r ∈ all) :
    Resolution.at? sites r.span.start = if r ∈ sites then some r else none := by
  have hUnique : ∀ r' ∈ sites, r'.span.start = r.span.start → r' = r := by
    intro r' hr' hStart
    exact List.inj_on_of_nodup_map (hAll.imp Nat.ne_of_lt) (hSites hr') hr hStart
  rw [Resolution.at?]
  split
  case isTrue hMem =>
    cases hFind : sites.reverse.find? fun r' => r'.span.start = r.span.start with
    | none =>
      have hNone := List.find?_eq_none.mp hFind r (List.mem_reverse.mpr hMem)
      exact absurd (by simp) hNone
    | some r' =>
      have hMem' := List.mem_reverse.mp (List.mem_of_find?_eq_some hFind)
      rw [hUnique r' hMem' (by simpa using List.find?_some hFind)]
  case isFalse hMem =>
    rw [List.find?_eq_none]
    intro r' hr' hStart
    have hMem' := List.mem_reverse.mp hr'
    rw [hUnique r' hMem' (by simpa using hStart)] at hMem'
    exact hMem hMem'

section Positions

variable {registry : Registry} {scope : Scope} {sites : List Resolution} {resolved : Nat → Bool}

/-- The sites at these positions, and just those that are resolved, are found where they start. -/
def FoundFrom (sites : List Resolution) (resolved : Nat → Bool) (position : Nat) (own : List Resolution) : Prop :=
  ∀ i r, own[i]? = some r →
    Resolution.at? sites r.span.start = if resolved (position + i) then some r else none

theorem FoundFrom.of_append_left {position : Nat} {own own' : List Resolution}
    (h : FoundFrom sites resolved position (own ++ own')) : FoundFrom sites resolved position own := by
  intro i r hr
  apply h i r
  rw [List.getElem?_append_left (List.getElem?_eq_some_iff.mp hr).1]
  exact hr

theorem FoundFrom.of_append_right {position : Nat} {own own' : List Resolution}
    (h : FoundFrom sites resolved position (own ++ own')) :
    FoundFrom sites resolved (position + own.length) own' := by
  intro i r hr
  rw [Nat.add_assoc]
  apply h (own.length + i) r
  rw [List.getElem?_append_right (Nat.le_add_right _ _), Nat.add_sub_cancel_left]
  exact hr

mutual
theorem Node.calls_eq_callsAt :
    ∀ (node : Node) (position : Nat), FoundFrom sites resolved position (node.resolutions registry scope) →
      node.calls registry sites = node.callsAt registry scope resolved position
  | .text _ _, _, _ => rfl
  | .expression _ _, _, _ => rfl
  | .element span name attributes children closing, position, h => by
    rw [Node.resolutions] at h
    rw [Node.calls, Node.callsAt]
    cases hGet : registry.get? name.value with
    | none =>
      simp only [hGet, List.nil_append] at h
      rw [Node.callsIn_eq_callsAtIn children position h]
      rfl
    | some c =>
      -- The element itself has the first of the positions, its children those behind it.
      simp only [hGet] at h
      have hInner := Node.callsIn_eq_callsAtIn children (position + 1) h.of_append_right
      have hOwn := h 0 (c.resolve attributes span scope) rfl
      change Resolution.at? sites span.start = _ at hOwn
      rw [hOwn, Nat.add_zero, ← hInner]
      by_cases hResolved : resolved position = true
      · simp only [hResolved, if_true]
        rw [Tag.componentCalls, Node.callsIn_isEmpty]
      · simp only [hResolved]
        rfl

theorem Node.callsIn_eq_callsAtIn :
    ∀ (nodes : List Node) (position : Nat),
      FoundFrom sites resolved position (Node.resolutionsIn registry scope nodes) →
      Node.callsIn registry sites nodes = Node.callsAtIn registry scope resolved position nodes
  | [], _, _ => rfl
  | node :: rest, position, h => by
    rw [Node.resolutionsIn] at h
    have hRest := h.of_append_right
    rw [Node.length_resolutions] at hRest
    rw [Node.callsIn, Node.callsAtIn, Node.calls_eq_callsAt node position h.of_append_left,
      Node.callsIn_eq_callsAtIn rest _ hRest]
end

end Positions

/-- Where the sites start one behind another, the document's own resolutions give each site its own. -/
theorem Document.calls_eq_callsAt_of_increasing {d : Document} {registry : Registry} {scope : Scope}
    (h : ((d.resolutions registry scope).map fun r => r.span.start).Pairwise (· < ·)) :
    d.calls registry (d.resolutions registry scope) =
      Node.callsAtIn registry scope (fun _ => true) 0 d.markup := by
  apply Node.callsIn_eq_callsAtIn
  intro i r hr
  have hMem : r ∈ d.resolutions registry scope := List.mem_of_getElem? hr
  rw [Resolution.at?_of_increasing h (List.Subset.refl _) hMem]
  simp [hMem]

/-- Generated with all of its resolutions, every registered element is written as a component. -/
theorem Document.calls_eq_callsAt {source : String} {d : Document} (h : parse source = .ok d) (registry : Registry)
    (scope : Scope) :
    d.calls registry (d.resolutions registry scope) =
      Node.callsAtIn registry scope (fun _ => true) 0 d.markup :=
  calls_eq_callsAt_of_increasing (parse_sites_increasing h)

/-- Whichever of its resolutions a document is generated with, each element is written with its own, by
its position among the sites, if that is one of them, and as it stands otherwise. -/
theorem Document.generate_eq_by_position {source : String} {d : Document} (h : parse source = .ok d)
    (registry : Registry) (scope : Scope) (style : ListingStyle) {sites : List Resolution}
    (hSites : sites ⊆ d.resolutions registry scope) :
    d.generate registry sites style =
      style.write (Node.callsAtIn registry scope
        (fun position => ((d.resolutions registry scope)[position]?).any fun r => r ∈ sites) 0 d.markup) := by
  rw [generate, calls]
  congr 1
  apply Node.callsIn_eq_callsAtIn
  intro i r hr
  change (d.resolutions registry scope)[i]? = some r at hr
  rw [Resolution.at?_of_increasing (parse_sites_increasing h) hSites (List.mem_of_getElem? hr), Nat.zero_add]
  simp [hr]

def boxRegistry : Registry := ⟨[⟨"Box", ["T"], [⟨"Value", .named "T"⟩], ⟨0, 0⟩⟩]⟩

/-- Of two boxes, one in the other, only the inner one is resolved. -/
theorem generate_inner_box_by_position : ∃ d, Document.parse "<Box><Box Value=1/></Box>" = .ok d ∧
    (d.resolutions boxRegistry .empty).length = 2 ∧
    d.generate boxRegistry ((d.resolutions boxRegistry .empty).drop 1) .standard =
      ListingStyle.standard.write (Node.callsAtIn boxRegistry .empty
        (fun position => ((d.resolutions boxRegistry .empty)[position]?).any fun r =>
          r ∈ (d.resolutions boxRegistry .empty).drop 1) 0 d.markup) := by
  have hLength : ((Document.parse "<Box><Box Value=1/></Box>").toOption.map fun d =>
      (d.resolutions boxRegistry .empty).length) = some 2 := by decide +kernel
  cases h : Document.parse "<Box><Box Value=1/></Box>" with
  | error e =>
    rw [h] at hLength
    cases hLength
  | ok d =>
    rw [h] at hLength
    exact ⟨d, rfl, Option.some.inj hLength, Document.generate_eq_by_position h boxRegistry .empty .standard
      (List.drop_subset 1 _)⟩

end TypedMarkup
