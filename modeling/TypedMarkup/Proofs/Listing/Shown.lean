import TypedMarkup.Proofs.Document.Placement
import TypedMarkup.Proofs.Listing.LineReading

/-! # What a listing shows

A node without places, its closing tag and the attributes that give type arguments is what generated code shows of it.
Its calls, every registered element with its own resolution, can be read back where no number with a point is written.
-/
namespace TypedMarkup
set_option autoImplicit false

/-- The attributes that are written: for a component those that give no type argument. -/
def Tag.passed (registry : Registry) (tag : Tag) : List Attribute :=
  match registry.get? tag.name.value with
  | none => tag.attributes
  | some c => tag.attributes.filter fun a => !c.isTypeArgument a

def Attribute.shown (a : Attribute) : Attribute where
  name := a.name.moved nowhere
  value := ⟨a.value.value.shown, a.value.span.moved nowhere⟩
  span := a.span.moved nowhere

namespace Node

mutual
/-- A node without places and closing tags, and with the attributes that are written. -/
def shown (registry : Registry) : Node → Node
  | element span name attributes children _ =>
    element (span.moved nowhere) (name.moved nowhere)
      ((Tag.passed registry ⟨span, name, attributes⟩).map Attribute.shown) (shownIn registry children) none
  | text span content => text (span.moved nowhere) content
  | expression span name => expression (span.moved nowhere) name

def shownIn (registry : Registry) : List Node → List Node
  | [] => []
  | node :: rest => shown registry node :: shownIn registry rest
end

theorem shownIn_eq_map (registry : Registry) (nodes : List Node) :
    shownIn registry nodes = nodes.map (shown registry) := by
  induction nodes with
  | nil => rfl
  | cons node rest ih => rw [shownIn, List.map_cons, ih]

end Node

/-- What is written of a resolution. -/
def Resolution.shown (r : Resolution) : String × List (Option TypeExpr) := (r.component, r.args)

/-! ## The calls of a tag -/

namespace Tag

variable (registry : Registry) (scope : Scope)

def opening (tag : Tag) : Call :=
  match tag.resolution? registry scope with
  | none => .openElement tag.name.value
  | some r => .openComponent (componentType r.component r.args)

/-- What is written behind the attributes, up to the end and what follows it. -/
def content (tag : Tag) (inner rest : List Call) : List Call :=
  match registry.get? tag.name.value with
  | none => inner ++ .closeElement :: rest
  | some _ => if inner.isEmpty then .closeComponent :: rest else
    .beginContent :: (inner ++ .endContent :: .closeComponent :: rest)

def ownCalls (tag : Tag) (inner : List Call) : List Call :=
  tag.opening registry scope :: ((tag.passed registry).map Attribute.call ++ tag.content registry inner [])

variable {registry scope} {tag tag' : Tag}

theorem passed_of_none (h : registry.get? tag.name.value = none) : tag.passed registry = tag.attributes := by
  simp only [passed, h]

theorem passed_of_some {c : Component} (h : registry.get? tag.name.value = some c) :
    tag.passed registry = tag.attributes.filter fun a => !c.isTypeArgument a := by
  simp only [passed, h]

theorem plainCalls_eq_ownCalls (h : registry.get? tag.name.value = none) (inner : List Call) :
    tag.plainCalls inner = tag.ownCalls registry scope inner := by
  simp [plainCalls, ownCalls, opening, resolution?, content, passed_of_none h, h]

theorem componentCalls_eq_ownCalls {c : Component} (h : registry.get? tag.name.value = some c) (inner : List Call) :
    tag.componentCalls c (c.resolve tag.attributes tag.span scope).args inner = tag.ownCalls registry scope inner := by
  simp only [componentCalls, ownCalls, opening, resolution?, content, passed_of_some h, h, Option.map_some]
  split <;> simp [Component.resolve]

theorem content_append (inner more rest : List Call) :
    tag.content registry inner more ++ rest = tag.content registry inner (more ++ rest) := by
  rw [content, content]
  split
  · simp
  · split <;> simp

theorem map_shown_content (inner rest : List Call) :
    (tag.content registry inner rest).map Call.shown =
      tag.content registry (inner.map Call.shown) (rest.map Call.shown) := by
  rw [content, content]
  split
  · simp [Call.shown]
  · cases inner <;> simp [Call.shown]

theorem shown_opening : (tag.opening registry scope).shown = tag.opening registry scope := by
  rw [opening]
  split <;> rfl

theorem map_shown_ownCalls_append (inner rest : List Call) :
    (tag.ownCalls registry scope inner).map Call.shown ++ rest =
      tag.opening registry scope :: ((tag.passed registry).map (fun a => a.call.shown) ++
        tag.content registry (inner.map Call.shown) rest) := by
  rw [ownCalls, List.map_cons, shown_opening, List.map_append, map_shown_content, List.cons_append, List.append_assoc,
    content_append, List.map_map]
  rfl

theorem map_shown_ownCalls (inner : List Call) :
    (tag.ownCalls registry scope inner).map Call.shown =
      tag.opening registry scope :: ((tag.passed registry).map (fun a => a.call.shown) ++
        tag.content registry (inner.map Call.shown) []) := by
  rw [← List.append_nil (List.map _ _), map_shown_ownCalls_append]

end Tag

namespace Node

variable (registry : Registry) (scope : Scope)

mutual
/-- The calls of a node in which every registered element is written with its own resolution. -/
def ownCalls : Node → List Call
  | element span name attributes children _ =>
    Tag.ownCalls registry scope ⟨span, name, attributes⟩ (ownCallsIn children)
  | text _ content => [.addContent (Text.quoted content)]
  | expression _ name => [.addContent name]

def ownCallsIn : List Node → List Call
  | [] => []
  | node :: rest => ownCalls node ++ ownCallsIn rest
end

mutual
theorem callsAt_eq_ownCalls : ∀ (node : Node) (position : Nat),
    node.callsAt registry scope (fun _ => true) position = node.ownCalls registry scope
  | element span name attributes children closing, position => by
    rw [callsAt, ownCalls]
    cases hGet : registry.get? name.value with
    | none =>
      dsimp only
      rw [callsAtIn_eq_ownCallsIn children position, Tag.plainCalls_eq_ownCalls hGet]
    | some c =>
      simp only [if_true]
      rw [callsAtIn_eq_ownCallsIn children (position + 1),
        ← @Tag.componentCalls_eq_ownCalls registry scope ⟨span, name, attributes⟩ c hGet]
  | text _ _, _ => rfl
  | expression _ _, _ => rfl

theorem callsAtIn_eq_ownCallsIn : ∀ (nodes : List Node) (position : Nat),
    callsAtIn registry scope (fun _ => true) position nodes = ownCallsIn registry scope nodes
  | [], _ => rfl
  | node :: rest, position => by
    rw [callsAtIn, ownCallsIn, callsAt_eq_ownCalls node position, callsAtIn_eq_ownCallsIn rest _]
end

end Node

theorem Document.calls_eq_ownCalls {source : String} {d : Document} (h : parse source = .ok d) (registry : Registry)
    (scope : Scope) : d.calls registry (d.resolutions registry scope) = Node.ownCallsIn registry scope d.markup := by
  rw [calls_eq_callsAt h, Node.callsAtIn_eq_ownCallsIn]

/-! ## Legible markup -/

def AttributeValue.isFloat : AttributeValue → Bool
  | float _ => true
  | _ => false

def Tag.FloatFree (tag : Tag) : Prop := ∀ a ∈ tag.attributes, a.value.value.isFloat = false

instance (tag : Tag) : Decidable tag.FloatFree := inferInstanceAs (Decidable (∀ a ∈ tag.attributes, _))

/-- No attribute has a number with a point for its value. -/
def Document.FloatFree (d : Document) : Prop := ∀ tag ∈ d.tags, tag.FloatFree

instance (d : Document) : Decidable d.FloatFree := inferInstanceAs (Decidable (∀ tag ∈ d.tags, _))

/-- What is written of the tag itself can be read back. -/
structure Tag.Legible (registry : Registry) (scope : Scope) (tag : Tag) : Prop where
  name : Token.IsName tag.name.value
  values : ∀ a ∈ tag.attributes, a.value.value.Legible
  args : ∀ r, tag.resolution? registry scope = some r → ∀ t, some t ∈ r.args → t.Named

mutual
def Node.Legible (registry : Registry) (scope : Scope) : Node → Prop
  | .element span name attributes children _ =>
    Tag.Legible registry scope ⟨span, name, attributes⟩ ∧ Node.LegibleIn registry scope children
  | .text _ _ => True
  | .expression _ name => Token.IsName name

def Node.LegibleIn (registry : Registry) (scope : Scope) : List Node → Prop
  | [] => True
  | node :: rest => node.Legible registry scope ∧ Node.LegibleIn registry scope rest
end

section Legible
open Spelling

variable {registry : Registry} {scope : Scope} {ts : List Token}

theorem AttributeValue.Spelled.legible {v : AttributeValue} (h : v.Spelled ts) (hNames : Token.AllNames ts)
    (hFloat : v.isFloat = false) : v.Legible := by
  cases h with
  | float x => cases hFloat
  | binding name => exact hNames name (by simp)
  | type hType => exact hType.named_of_allNames hNames
  | _ => trivial

theorem Attribute.legible_of_mem {attributes : List Attribute} (h : Row Attribute.Spelled attributes ts)
    (hNames : Token.AllNames ts) {a : Attribute} (ha : a ∈ attributes) (hFloat : a.value.value.isFloat = false) :
    a.value.value.Legible := by
  obtain ⟨own, hOwn, hSub⟩ := h.exists_of_mem ha
  cases hOwn with
  | bare hTrue =>
    rw [hTrue]
    trivial
  | valued hValue => exact hValue.legible (hNames.mono fun t ht => hSub (by simp [ht])) hFloat

mutual
theorem Node.Spelled.legible : ∀ {node : Node} {ts : List Token}, node.Spelled ts → Token.AllNames ts →
    (∀ tag ∈ node.tags, tag.FloatFree ∧ ∀ r, tag.resolution? registry scope = some r → ∀ t, some t ∈ r.args → t.Named) →
    node.Legible registry scope
  | .text _ _, _, _, _, _ => trivial
  | .expression _ name, _, h, hNames, _ => by
    cases h
    exact hNames name (by simp)
  | .element span name attributes children closing, _, h, hNames, hTags => by
    obtain ⟨⟨hFloat, hArgs⟩, hInner⟩ := List.forall_mem_cons.mp hTags
    -- Of the tokens only the name, the attributes and the children are written.
    have hParts : Token.IsName name.value ∧ (∀ a ∈ attributes, a.value.value.Legible) ∧
        Node.LegibleIn registry scope children := by
      cases h with
      | @selfClosing _ _ _ ts hRow =>
        exact ⟨hNames _ (by simp), fun a ha => Attribute.legible_of_mem hRow (hNames.mono fun t ht => by simp [ht]) ha
          (hFloat a ha), trivial⟩
      | @closed _ _ _ _ _ ts inner hRow hChildren =>
        exact ⟨hNames _ (by simp), fun a ha => Attribute.legible_of_mem hRow (hNames.mono fun t ht => by simp [ht]) ha
          (hFloat a ha), Node.Spelled.legibleIn hChildren (hNames.mono fun t ht => by simp [ht]) hInner⟩
    exact ⟨⟨hParts.1, hParts.2.1, hArgs⟩, hParts.2.2⟩

theorem Node.Spelled.legibleIn : ∀ {nodes : List Node} {ts : List Token}, Row Node.Spelled nodes ts →
    Token.AllNames ts →
    (∀ tag ∈ Node.tagsIn nodes,
      tag.FloatFree ∧ ∀ r, tag.resolution? registry scope = some r → ∀ t, some t ∈ r.args → t.Named) →
    Node.LegibleIn registry scope nodes
  | [], _, _, _, _ => trivial
  | node :: rest, _, h, hNames, hTags => by
    obtain ⟨hOwn, hRest⟩ := List.forall_mem_append.mp hTags
    cases h with
    | cons head tail =>
      exact ⟨Node.Spelled.legible head (hNames.mono (List.subset_append_left _ _)) hOwn,
        Node.Spelled.legibleIn tail (hNames.mono (List.subset_append_right _ _)) hRest⟩
end

theorem Node.legibleIn_iff {nodes : List Node} :
    LegibleIn registry scope nodes ↔ ∀ node ∈ nodes, node.Legible registry scope := by
  induction nodes with
  | nil => simp [LegibleIn]
  | cons node rest ih => rw [LegibleIn, List.forall_mem_cons, ih]

theorem Document.legible_markup {source : String} {d : Document} (h : parse source = .ok d) (hFloat : d.FloatFree)
    (hScope : scope.Declared) : Node.LegibleIn registry scope d.markup := by
  rw [Node.legibleIn_iff]
  intro node hNode
  obtain ⟨own, hOwn, hSub⟩ := (spelled_of_parse h).exists_of_mem_markup hNode
  apply hOwn.legible ((Token.allNames_scan source).mono hSub)
  intro tag hTag
  have hMem : tag ∈ d.tags := by
    rw [tags, Node.tagsIn_eq_flatMap, List.mem_flatMap]
    exact ⟨node, hNode, hTag⟩
  refine ⟨hFloat tag hMem, ?_⟩
  intro r hr t ht
  obtain ⟨c, -, rfl⟩ := Tag.resolution?_eq_some_iff.mp hr
  exact named_of_mem_args h hScope.named hMem ht

theorem Tag.legible_content (tag : Tag) {inner : List Call} (h : ∀ c ∈ inner, c.Legible) :
    ∀ c ∈ tag.content registry inner [], c.Legible := by
  rw [content]
  split
  · exact List.forall_mem_append.mpr ⟨h, by simp [Call.Legible]⟩
  · split
    · simp [Call.Legible]
    · exact List.forall_mem_cons.mpr ⟨trivial, List.forall_mem_append.mpr ⟨h, by simp [Call.Legible]⟩⟩

theorem Tag.legible_ownCalls {tag : Tag} (h : tag.Legible registry scope) {inner : List Call}
    (hInner : ∀ c ∈ inner, c.Legible) : ∀ c ∈ tag.ownCalls registry scope inner, c.Legible := by
  have hPassed : tag.passed registry ⊆ tag.attributes := by
    rw [passed]
    split
    · exact List.Subset.refl _
    · exact List.filter_subset_self _
  have hOpening : (tag.opening registry scope).Legible := by
    rw [opening]
    split <;> trivial
  simp only [ownCalls, List.forall_mem_cons, List.forall_mem_append, List.forall_mem_map]
  exact ⟨hOpening, fun a ha => h.values a (hPassed ha), tag.legible_content hInner⟩

mutual
theorem Node.legible_ownCalls : ∀ {node : Node}, node.Legible registry scope →
    ∀ c ∈ node.ownCalls registry scope, c.Legible
  | .text _ _, _ => by simp [ownCalls, Call.Legible]
  | .expression _ _, _ => by simp [ownCalls, Call.Legible]
  | .element _ _ _ _ _, h => Tag.legible_ownCalls h.1 (Node.legible_ownCallsIn h.2)

theorem Node.legible_ownCallsIn : ∀ {nodes : List Node}, LegibleIn registry scope nodes →
    ∀ c ∈ ownCallsIn registry scope nodes, c.Legible
  | [], _ => nofun
  | node :: rest, h => by
    rw [ownCallsIn, List.forall_mem_append]
    exact ⟨Node.legible_ownCalls h.1, Node.legible_ownCallsIn h.2⟩
end

end Legible

end TypedMarkup
