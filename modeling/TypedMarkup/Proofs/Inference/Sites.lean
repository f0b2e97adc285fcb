import TypedMarkup.Proofs.Inference.Constraints

/-! # What settles a usage site

Which arguments and which outcome a site of a generic component has, said by the attributes that pin
type parameters and by the constraints that the others give. Resolving a site finds just these.
-/
namespace TypedMarkup
set_option autoImplicit false

/-- The type that the first attribute named after a type parameter gives it. -/
def Attribute.pinned? : List Attribute → String → Option TypeExpr
  | [], _ => none
  | a :: rest, param => if a.name.value = param then a.value.value.namedType? else pinned? rest param

theorem Attribute.find?_bind_namedType? (attributes : List Attribute) (param : String) :
    ((Attribute.find? attributes param).bind fun a => a.value.value.namedType?) = pinned? attributes param := by
  induction attributes with
  | nil => rfl
  | cons a rest ih =>
    rw [Attribute.find?] at ih ⊢
    rw [pinned?]
    by_cases h : a.name.value = param
    · rw [List.find?_cons_of_pos (by simpa using h), if_pos h]
      rfl
    · rw [List.find?_cons_of_neg (by simpa using h), if_neg h]
      exact ih

namespace Component
open Attribute Constraint

variable {c : Component} {attributes : List Attribute} {scope : Scope}

/-- The constraints from the attributes in order, for each that names a parameter and has a known type. -/
def constraints (c : Component) (attributes : List Attribute) (scope : Scope) : List Constraint :=
  attributes.flatMap fun a =>
    match c.param? a.name.value, a.value.value.staticType? scope with
    | some param, some actual => param.type.constraints c.typeParams actual
    | _, _ => []

/-- The arguments and the outcome that a site of a generic component has to have. -/
inductive Settles (c : Component) (attributes : List Attribute) (scope : Scope) :
    List (Option TypeExpr) → Outcome → Prop
  | explicit (hPinned : ∀ p ∈ c.typeParams, pinned? attributes p ≠ none) :
      Settles c attributes scope (c.typeParams.map (pinned? attributes)) .explicit
  | missing (hPinned : ∃ p ∈ c.typeParams, pinned? attributes p ≠ none)
      (hMissing : ∃ p ∈ c.typeParams, pinned? attributes p = none) :
      Settles c attributes scope (c.typeParams.map (pinned? attributes))
        (.failed (.missing (c.typeParams.filter fun p => pinned? attributes p = none)))
  | conflict (hUnpinned : ∀ p ∈ c.typeParams, pinned? attributes p = none) (conflict : Conflict)
      (hConflict : conflict.IsEarliestIn (c.constraints attributes scope)) :
      Settles c attributes scope (c.typeParams.map fun _ => none) (.failed (.conflict conflict))
  | inferred (hUnpinned : ∀ p ∈ c.typeParams, pinned? attributes p = none)
      (hAgree : Agree (c.constraints attributes scope))
      (hFound : ∀ p ∈ c.typeParams, typeOf? (c.constraints attributes scope) p ≠ none) :
      Settles c attributes scope (c.typeParams.map (typeOf? (c.constraints attributes scope))) .inferred
  | underspecified (hUnpinned : ∀ p ∈ c.typeParams, pinned? attributes p = none)
      (hAgree : Agree (c.constraints attributes scope))
      (hUnbound : ∃ p ∈ c.typeParams, typeOf? (c.constraints attributes scope) p = none) :
      Settles c attributes scope (c.typeParams.map (typeOf? (c.constraints attributes scope)))
        (.failed (.underspecified
          (c.typeParams.filter fun p => typeOf? (c.constraints attributes scope) p = none)))

theorem explicitArgs_eq_map_pinned? (c : Component) (attributes : List Attribute) :
    c.explicitArgs attributes = c.typeParams.map (pinned? attributes) := by
  rw [explicitArgs]
  apply List.map_congr_left
  intro p _
  exact find?_bind_namedType? attributes p

theorem unbound_map (c : Component) (f : String → Option TypeExpr) :
    c.unbound (c.typeParams.map f) = c.typeParams.filter fun p => f p = none := by
  rw [unbound]
  induction c.typeParams with
  | nil => rfl
  | cons p rest ih =>
    cases h : f p with
    | none => simpa [h] using ih
    | some t => simpa [h] using ih

theorem constraintsOfArgs_facts (c : Component) (attributes : List Attribute) (scope : Scope) :
    TypeExpr.constraintsOfArgs c.typeParams ((attributes.filterMap (c.fact? scope)).map Prod.fst)
      ((attributes.filterMap (c.fact? scope)).map Prod.snd) = c.constraints attributes scope := by
  induction attributes with
  | nil => rfl
  | cons a rest ih =>
    rw [constraints, List.flatMap_cons, ← constraints, ← ih]
    cases hParam : c.param? a.name.value with
    | none => simp [fact?, hParam]
    | some param =>
      by_cases hMention : c.typeParams.any param.type.mentions = true
      · cases hType : a.value.value.staticType? scope with
        | none => simp [fact?, hParam, hType]
        | some actual => simp [fact?, hParam, hType, hMention, TypeExpr.constraintsOfArgs]
      · -- The type of the value is not asked for here, but would say nothing either.
        have hNil := TypeExpr.constraints_eq_nil (Bool.eq_false_iff.mpr hMention)
        have hFact : c.fact? scope a = none := by rw [fact?, hParam]; exact if_neg hMention
        cases hType : a.value.value.staticType? scope <;> simp [hFact, hNil]

theorem infer_eq_absorb (c : Component) (attributes : List Attribute) (scope : Scope) :
    c.infer attributes scope = Assignment.absorb .empty (c.constraints attributes scope) := by
  rw [infer, Assignment.unifyArgs_eq_absorb, constraintsOfArgs_facts]

theorem resolveArgs_of_all_pinned (hGeneric : c.isGeneric = true)
    (h : ∀ p ∈ c.typeParams, pinned? attributes p ≠ none) :
    c.resolveArgs attributes scope = (c.typeParams.map (pinned? attributes), .explicit) := by
  have hAll : (c.typeParams.map (pinned? attributes)).all Option.isSome = true := by
    simpa [List.all_eq_true, Option.isSome_iff_ne_none] using h
  rw [resolveArgs]
  simp only [hGeneric, explicitArgs_eq_map_pinned?, hAll]
  rfl

theorem resolveArgs_of_some_pinned (hGeneric : c.isGeneric = true)
    (hPinned : ∃ p ∈ c.typeParams, pinned? attributes p ≠ none)
    (hMissing : ∃ p ∈ c.typeParams, pinned? attributes p = none) :
    c.resolveArgs attributes scope =
      (c.typeParams.map (pinned? attributes),
        .failed (.missing (c.typeParams.filter fun p => pinned? attributes p = none))) := by
  have hAll : (c.typeParams.map (pinned? attributes)).all Option.isSome = false := by
    obtain ⟨p, hp, hNone⟩ := hMissing
    exact List.all_eq_false.mpr ⟨none, List.mem_map.mpr ⟨p, hp, hNone⟩, by simp⟩
  have hAny : (c.typeParams.map (pinned? attributes)).any Option.isSome = true := by
    obtain ⟨p, hp, hSome⟩ := hPinned
    exact List.any_eq_true.mpr ⟨_, List.mem_map.mpr ⟨p, hp, rfl⟩, Option.isSome_iff_ne_none.mpr hSome⟩
  rw [resolveArgs]
  simp only [hGeneric, explicitArgs_eq_map_pinned?, hAll, hAny, unbound_map]
  rfl

/-- The arguments and the outcome that what is inferred leads to, where no argument is pinned. -/
def concluded (c : Component) : Except Conflict Assignment → List (Option TypeExpr) × Outcome
  | .error conflict => (c.typeParams.map fun _ => none, .failed (.conflict conflict))
  | .ok found =>
    if (c.typeParams.map found).all Option.isSome then (c.typeParams.map found, .inferred)
    else (c.typeParams.map found, .failed (.underspecified (c.typeParams.filter fun p => found p = none)))

theorem resolveArgs_of_unpinned (hGeneric : c.isGeneric = true)
    (h : ∀ p ∈ c.typeParams, pinned? attributes p = none) :
    c.resolveArgs attributes scope = c.concluded (c.infer attributes scope) := by
  have hGiven : c.explicitArgs attributes = c.typeParams.map fun _ => none := by
    rw [explicitArgs_eq_map_pinned?]
    exact List.map_congr_left h
  have hNonempty : c.typeParams ≠ [] := by simpa [isGeneric] using hGeneric
  have hAll : (c.typeParams.map fun _ => (none : Option TypeExpr)).all Option.isSome = false := by
    obtain ⟨p, rest, hParams⟩ := List.exists_cons_of_ne_nil hNonempty
    simp [hParams]
  have hAny : (c.typeParams.map fun _ => (none : Option TypeExpr)).any Option.isSome = false := by simp
  rw [resolveArgs]
  simp only [hGeneric, hGiven, hAll, hAny, unbound_map]
  cases c.infer attributes scope <;> rfl

theorem resolveArgs_of_conflict (hGeneric : c.isGeneric = true)
    (hUnpinned : ∀ p ∈ c.typeParams, pinned? attributes p = none) {conflict : Conflict}
    (hConflict : conflict.IsEarliestIn (c.constraints attributes scope)) :
    c.resolveArgs attributes scope = (c.typeParams.map fun _ => none, .failed (.conflict conflict)) := by
  rw [resolveArgs_of_unpinned hGeneric hUnpinned, infer_eq_absorb, Assignment.absorb_of_isEarliestIn hConflict]
  rfl

theorem resolveArgs_of_agree (hGeneric : c.isGeneric = true)
    (hUnpinned : ∀ p ∈ c.typeParams, pinned? attributes p = none)
    (hAgree : Agree (c.constraints attributes scope)) :
    c.resolveArgs attributes scope =
      (c.typeParams.map (typeOf? (c.constraints attributes scope)),
        if ∀ p ∈ c.typeParams, typeOf? (c.constraints attributes scope) p ≠ none then .inferred
        else .failed (.underspecified
          (c.typeParams.filter fun p => typeOf? (c.constraints attributes scope) p = none))) := by
  rw [resolveArgs_of_unpinned hGeneric hUnpinned, infer_eq_absorb, Assignment.absorb_of_agree hAgree]
  simp only [concluded, List.all_map, List.all_eq_true, Function.comp_apply, Option.isSome_iff_ne_none]
  split <;> rfl

theorem settles_resolveArgs (hGeneric : c.isGeneric = true) (attributes : List Attribute) (scope : Scope) :
    c.Settles attributes scope (c.resolveArgs attributes scope).1 (c.resolveArgs attributes scope).2 := by
  by_cases hUnpinned : ∀ p ∈ c.typeParams, pinned? attributes p = none
  · rcases agree_or_conflict (c.constraints attributes scope) with hAgree | ⟨conflict, hConflict⟩
    · rw [resolveArgs_of_agree hGeneric hUnpinned hAgree]
      split
      case isTrue hFound => exact .inferred hUnpinned hAgree hFound
      case isFalse hFound =>
        refine .underspecified hUnpinned hAgree ?_
        simpa using hFound
    · rw [resolveArgs_of_conflict hGeneric hUnpinned hConflict]
      exact .conflict hUnpinned conflict hConflict
  · have hPinned : ∃ p ∈ c.typeParams, pinned? attributes p ≠ none := by simpa using hUnpinned
    by_cases hAll : ∀ p ∈ c.typeParams, pinned? attributes p ≠ none
    · rw [resolveArgs_of_all_pinned hGeneric hAll]
      exact .explicit hAll
    · have hMissing : ∃ p ∈ c.typeParams, pinned? attributes p = none := by simpa using hAll
      rw [resolveArgs_of_some_pinned hGeneric hPinned hMissing]
      exact .missing hPinned hMissing

theorem Settles.eq_resolveArgs (hGeneric : c.isGeneric = true) {args : List (Option TypeExpr)} {outcome : Outcome}
    (h : c.Settles attributes scope args outcome) : c.resolveArgs attributes scope = (args, outcome) := by
  cases h with
  | explicit hPinned => exact resolveArgs_of_all_pinned hGeneric hPinned
  | missing hPinned hMissing => exact resolveArgs_of_some_pinned hGeneric hPinned hMissing
  | conflict hUnpinned conflict hConflict => exact resolveArgs_of_conflict hGeneric hUnpinned hConflict
  | inferred hUnpinned hAgree hFound =>
    rw [resolveArgs_of_agree hGeneric hUnpinned hAgree, if_pos hFound]
  | underspecified hUnpinned hAgree hUnbound =>
    rw [resolveArgs_of_agree hGeneric hUnpinned hAgree, if_neg]
    simpa using hUnbound

/-- A site of a generic component resolves to the arguments and the outcome that settle it, and to
nothing else. -/
theorem resolve_eq_iff_settles (hGeneric : c.isGeneric = true) (attributes : List Attribute) (span : Span)
    (scope : Scope) (r : Resolution) :
    c.resolve attributes span scope = r ↔
      r.component = c.name ∧ r.span = span ∧ c.Settles attributes scope r.args r.outcome := by
  constructor
  · rintro rfl
    exact ⟨rfl, rfl, settles_resolveArgs hGeneric attributes scope⟩
  · obtain ⟨component, site, args, outcome⟩ := r
    rintro ⟨rfl, rfl, hSettles⟩
    rw [resolve, hSettles.eq_resolveArgs hGeneric]

end Component

def lookupComponent : Component where
  name := "Lookup"
  typeParams := ["TKey", "TValue"]
  params := [
    ⟨"Entries", .app "Dictionary" [.named "TKey", .app "List" [.named "TValue"]]⟩,
    ⟨"Fallback", .named "TValue"⟩]
  span := ⟨0, 0⟩

def lookupScope : Scope where
  bindings := [
    ("index", .app "Dictionary" [.named "string", .app "List" [.named "double"]]),
    ("ratio", .named "double")]

/-- Entries from a binding, with this fallback. -/
def lookupAttributes (fallback : AttributeValue) : List Attribute := [
  ⟨⟨"Entries", ⟨8, 15⟩⟩, ⟨.binding "index", ⟨16, 22⟩⟩, ⟨8, 22⟩⟩,
  ⟨⟨"Fallback", ⟨23, 31⟩⟩, ⟨fallback, ⟨32, 33⟩⟩, ⟨23, 33⟩⟩]

theorem settles_lookup_conflict : lookupComponent.isGeneric = true ∧
    lookupComponent.Settles (lookupAttributes (.integer 3)) lookupScope [none, none]
      (.failed (.conflict ⟨"TValue", .named "double", .named "int"⟩)) :=
  ⟨rfl, ((Component.resolve_eq_iff_settles rfl (lookupAttributes (.integer 3)) ⟨0, 36⟩ lookupScope
    ⟨"Lookup", ⟨0, 36⟩, [none, none], .failed (.conflict ⟨"TValue", .named "double", .named "int"⟩)⟩).mp
      (by decide)).2.2⟩

end TypedMarkup
