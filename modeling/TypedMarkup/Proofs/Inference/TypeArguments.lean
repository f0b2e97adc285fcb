import TypedMarkup.Proofs.Inference.Substitution

/-! # Attributes that give type arguments

The first attribute of a name is the one that counts. If it gives a type argument it is not passed to the
component, and the type that it names stands in the slot of its type parameter. A later attribute of the
same name is not passed to the component either, whatever stands in the slot.
-/
namespace TypedMarkup
set_option autoImplicit false

namespace Attribute

theorem pinned?_append_of_ne {before : List Attribute} {param : String} (h : ∀ b ∈ before, b.name.value ≠ param)
    (attributes : List Attribute) : pinned? (before ++ attributes) param = pinned? attributes param := by
  induction before with
  | nil => rfl
  | cons b rest ih =>
    rw [List.cons_append, pinned?, if_neg (h b List.mem_cons_self)]
    exact ih fun b' hb' => h b' (List.mem_cons_of_mem _ hb')

theorem pinned?_of_first {before after : List Attribute} {a : Attribute}
    (hFirst : ∀ b ∈ before, b.name.value ≠ a.name.value) :
    pinned? (before ++ a :: after) a.name.value = a.value.value.namedType? := by
  rw [pinned?_append_of_ne hFirst, pinned?, if_pos rfl]

end Attribute

namespace Component
open Attribute

variable {c : Component} {attributes : List Attribute} {scope : Scope}

theorem isTypeArgument_eq_true_iff {a : Attribute} :
    c.isTypeArgument a = true ↔ a.name.value ∈ c.typeParams ∧ ∃ t, a.value.value.namedType? = some t := by
  rw [isTypeArgument, hasTypeParam, Bool.and_eq_true, List.contains_iff_mem, Option.isSome_iff_exists]

theorem isGeneric_of_mem {p : String} (h : p ∈ c.typeParams) : c.isGeneric = true := by
  have hNonempty := List.ne_nil_of_mem h
  simpa [isGeneric] using hNonempty

theorem param_mem_of_isEarliestIn {conflict : Conflict}
    (h : conflict.IsEarliestIn (c.constraints attributes scope)) : conflict.param ∈ c.typeParams := by
  obtain ⟨before, after, hSplit, -, -, -⟩ := h
  have hMem : ⟨conflict.param, conflict.second⟩ ∈ c.constraints attributes scope := by
    rw [hSplit]
    simp
  exact param_mem_of_mem_constraints hMem

theorem args_of_some_pinned (hPinned : ∃ p ∈ c.typeParams, pinned? attributes p ≠ none) :
    (c.resolveArgs attributes scope).1 = c.typeParams.map (pinned? attributes) := by
  obtain ⟨q, hq, -⟩ := id hPinned
  have hGeneric := isGeneric_of_mem hq
  by_cases hAll : ∀ p ∈ c.typeParams, pinned? attributes p ≠ none
  · rw [resolveArgs_of_all_pinned hGeneric hAll]
  · have hMissing : ∃ p ∈ c.typeParams, pinned? attributes p = none := by simpa using hAll
    rw [resolveArgs_of_some_pinned hGeneric hPinned hMissing]

/-- The first attribute of its name that is not passed to the component has given its type argument. -/
theorem argument?_of_first (c : Component) {before after : List Attribute} {a : Attribute} (span : Span)
    (scope : Scope) (hFirst : ∀ b ∈ before, b.name.value ≠ a.name.value) (hLeftOut : c.isTypeArgument a = true) :
    ∃ t, a.value.value.namedType? = some t ∧
      c.argument? (c.resolve (before ++ a :: after) span scope).args a.name.value = some t := by
  obtain ⟨hParam, t, hNamed⟩ := isTypeArgument_eq_true_iff.mp hLeftOut
  have hPinned : pinned? (before ++ a :: after) a.name.value = some t := by rw [pinned?_of_first hFirst, hNamed]
  refine ⟨t, hNamed, ?_⟩
  change c.argument? (c.resolveArgs (before ++ a :: after) scope).1 a.name.value = some t
  rw [args_of_some_pinned ⟨a.name.value, hParam, by simp [hPinned]⟩, argument?_map _ hParam, hPinned]

end Component

def keyAttribute (value : AttributeValue) : Attribute :=
  ⟨⟨"TKey", ⟨8, 12⟩⟩, ⟨value, ⟨13, 16⟩⟩, ⟨8, 16⟩⟩

theorem argument?_of_first_key :
    (∀ b ∈ lookupAttributes (.integer 3), b.name.value ≠ "TKey") ∧
    lookupComponent.isTypeArgument (keyAttribute (.type (.named "string"))) = true ∧
    ∃ t, (keyAttribute (.type (.named "string"))).value.value.namedType? = some t ∧
      lookupComponent.argument? (lookupComponent.resolve
        (lookupAttributes (.integer 3) ++ [keyAttribute (.type (.named "string"))]) ⟨0, 36⟩ lookupScope).args
        "TKey" = some t :=
  ⟨by decide, rfl, lookupComponent.argument?_of_first ⟨0, 36⟩ lookupScope (by decide) rfl⟩

/-- Behind an attribute of the same name that names no type, an attribute that names one gives no type
argument, and still it is not passed to the component. -/
theorem type_argument_lost_behind_same_name :
    ∃ a ∈ [keyAttribute (.integer 3), keyAttribute (.type (.named "string"))],
      lookupComponent.isTypeArgument a = true ∧ a.value.value.namedType? = some (.named "string") ∧
      lookupComponent.argument? (lookupComponent.resolve
        [keyAttribute (.integer 3), keyAttribute (.type (.named "string"))] ⟨0, 36⟩ lookupScope).args
        a.name.value = none :=
  ⟨keyAttribute (.type (.named "string")), by simp, rfl, rfl, by decide⟩

end TypedMarkup
