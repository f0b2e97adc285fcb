import TypedMarkup.Proofs.Document.Spelling
import TypedMarkup.Proofs.Inference.TypeArguments

/-! # Slots and outcomes

There is a slot for each type parameter, and the outcome of a site tells which of the slots are empty. What
stands in a slot comes from the value of an attribute.
-/
namespace TypedMarkup
set_option autoImplicit false

namespace Component
open Attribute Constraint

variable {c : Component} {attributes : List Attribute} {scope : Scope} {args : List (Option TypeExpr)}

/-- The names are those of the type parameters whose slots are empty, in the order of declaration. -/
structure ListsEmpty (c : Component) (args : List (Option TypeExpr)) (names : List String) : Prop where
  ordered : names.Sublist c.typeParams
  exact (i : Nat) (p : String) : c.typeParams[i]? = some p → (p ∈ names ↔ args[i]? = some none)

/-- What an outcome tells about the slots. -/
inductive Tells (c : Component) (args : List (Option TypeExpr)) : Outcome → Prop
  | notGeneric (hParams : c.typeParams = []) : Tells c args .notGeneric
  | explicit (hFull : none ∉ args) : Tells c args .explicit
  | inferred (hFull : none ∉ args) : Tells c args .inferred
  | missing {names : List String} (hLists : c.ListsEmpty args names) (hSome : names ≠ [])
      (hNotAll : ∃ p ∈ c.typeParams, p ∉ names) : Tells c args (.failed (.missing names))
  | underspecified {names : List String} (hLists : c.ListsEmpty args names) (hSome : names ≠ []) :
      Tells c args (.failed (.underspecified names))
  | conflict {conflict : Conflict} (hEmpty : ∀ arg ∈ args, arg = none) (hParam : conflict.param ∈ c.typeParams)
      (hDiffer : conflict.first ≠ conflict.second) : Tells c args (.failed (.conflict conflict))

theorem listsEmpty_map (c : Component) (f : String → Option TypeExpr) :
    c.ListsEmpty (c.typeParams.map f) (c.typeParams.filter fun p => f p = none) where
  ordered := List.filter_sublist
  exact i p hp := by
    have hMem := List.mem_of_getElem? hp
    simp [hp, hMem]

theorem none_not_mem_map {f : String → Option TypeExpr} (h : ∀ p ∈ c.typeParams, f p ≠ none) :
    none ∉ c.typeParams.map f := by
  intro hNone
  obtain ⟨p, hp, hEmpty⟩ := List.mem_map.mp hNone
  exact h p hp hEmpty

theorem filter_ne_nil {f : String → Option TypeExpr} (h : ∃ p ∈ c.typeParams, f p = none) :
    (c.typeParams.filter fun p => f p = none) ≠ [] := by
  obtain ⟨p, hp, hNone⟩ := h
  exact List.ne_nil_of_mem (List.mem_filter.mpr ⟨hp, decide_eq_true hNone⟩)

theorem Settles.tells {outcome : Outcome} (h : c.Settles attributes scope args outcome) : c.Tells args outcome := by
  cases h with
  | explicit hPinned => exact .explicit (none_not_mem_map hPinned)
  | missing hPinned hMissing =>
    refine .missing (c.listsEmpty_map _) (filter_ne_nil hMissing) ?_
    obtain ⟨p, hp, hSome⟩ := hPinned
    refine ⟨p, hp, ?_⟩
    intro hListed
    exact hSome (of_decide_eq_true (List.mem_filter.mp hListed).2)
  | conflict _ conflict hConflict =>
    obtain ⟨before, after, -, -, -, hDiffer⟩ := id hConflict
    refine .conflict ?_ (param_mem_of_isEarliestIn hConflict) hDiffer
    intro arg hArg
    obtain ⟨_, -, rfl⟩ := List.mem_map.mp hArg
    rfl
  | inferred _ _ hFound => exact .inferred (none_not_mem_map hFound)
  | underspecified _ _ hUnbound => exact .underspecified (c.listsEmpty_map _) (filter_ne_nil hUnbound)

theorem Settles.length_args {outcome : Outcome} (h : c.Settles attributes scope args outcome) :
    args.length = c.typeParams.length := by
  cases h <;> exact List.length_map _

theorem length_resolveArgs (c : Component) (attributes : List Attribute) (scope : Scope) :
    (c.resolveArgs attributes scope).1.length = c.typeParams.length := by
  cases hGeneric : c.isGeneric with
  | false =>
    have hParams : c.typeParams = [] := by simpa [isGeneric] using hGeneric
    rw [resolveArgs_of_not_generic hGeneric, hParams]
    rfl
  | true => exact (settles_resolveArgs hGeneric attributes scope).length_args

theorem tells_resolveArgs (c : Component) (attributes : List Attribute) (scope : Scope) :
    c.Tells (c.resolveArgs attributes scope).1 (c.resolveArgs attributes scope).2 := by
  cases hGeneric : c.isGeneric with
  | false =>
    rw [resolveArgs_of_not_generic hGeneric]
    exact .notGeneric (by simpa [isGeneric] using hGeneric)
  | true => exact (settles_resolveArgs hGeneric attributes scope).tells

theorem ListsEmpty.none_mem {names : List String} (h : c.ListsEmpty args names) (hSome : names ≠ []) :
    none ∈ args := by
  obtain ⟨p, rest, rfl⟩ := List.exists_cons_of_ne_nil hSome
  obtain ⟨i, hi⟩ := List.mem_iff_getElem?.mp (h.ordered.subset List.mem_cons_self)
  exact List.mem_of_getElem? ((h.exact i p hi).mp List.mem_cons_self)

theorem Tells.isFailure_iff {outcome : Outcome} (h : c.Tells args outcome)
    (hLength : args.length = c.typeParams.length) : outcome.isFailure = true ↔ none ∈ args := by
  cases h with
  | notGeneric hParams =>
    have hArgs : args = [] := by rw [← List.length_eq_zero_iff, hLength, hParams, List.length_nil]
    simp [Outcome.isFailure, hArgs]
  | explicit hFull => simp [Outcome.isFailure, hFull]
  | inferred hFull => simp [Outcome.isFailure, hFull]
  | missing hLists hSome _ => simp [Outcome.isFailure, hLists.none_mem hSome]
  | underspecified hLists hSome => simp [Outcome.isFailure, hLists.none_mem hSome]
  | conflict hEmpty hParam _ =>
    have hNonempty : args ≠ [] := by
      intro hNil
      rw [hNil, List.length_nil] at hLength
      exact List.ne_nil_of_mem hParam (List.length_eq_zero_iff.mp hLength.symm)
    obtain ⟨arg, rest, rfl⟩ := List.exists_cons_of_ne_nil hNonempty
    obtain rfl := hEmpty arg List.mem_cons_self
    simp [Outcome.isFailure]

end Component

namespace TypeExpr

mutual
theorem mem_names_of_mem_constraints {params : List String} {k : Constraint} {n : String} (hn : n ∈ k.type.names) :
    ∀ {pattern actual : TypeExpr}, k ∈ pattern.constraints params actual → n ∈ actual.names
  | app p ps, actual, h => by
    rw [constraints] at h
    split at h
    · obtain rfl := List.mem_singleton.mp h
      exact hn
    · split at h
      · obtain ⟨head, args⟩ := actual
        obtain ⟨a, ha, hInner⟩ := mem_names_of_mem_constraintsOfArgs hn h
        rw [names_app]
        exact List.mem_cons_of_mem _ (List.mem_flatMap.mpr ⟨a, ha, hInner⟩)
      · cases h

theorem mem_names_of_mem_constraintsOfArgs {params : List String} {k : Constraint} {n : String}
    (hn : n ∈ k.type.names) : ∀ {patterns actuals : List TypeExpr},
      k ∈ constraintsOfArgs params patterns actuals → ∃ a ∈ actuals, n ∈ a.names
  | p :: ps, a :: as, h => by
    rw [constraintsOfArgs] at h
    rcases List.mem_append.mp h with h | h
    · exact ⟨a, List.mem_cons_self, mem_names_of_mem_constraints hn h⟩
    · obtain ⟨b, hb, hInner⟩ := mem_names_of_mem_constraintsOfArgs hn h
      exact ⟨b, List.mem_cons_of_mem _ hb, hInner⟩
  | [], _, h => by simp [constraintsOfArgs] at h
  | _ :: _, [], h => by simp [constraintsOfArgs] at h
end

end TypeExpr

/-- The value names the type, or the type is made of names in the type of the value. -/
def AttributeValue.Supplies (scope : Scope) (t : TypeExpr) (v : AttributeValue) : Prop :=
  v.namedType? = some t ∨ ∃ actual, v.staticType? scope = some actual ∧ t.names ⊆ actual.names

namespace Component
open Attribute Constraint

variable {c : Component} {attributes : List Attribute} {scope : Scope} {p : String} {t : TypeExpr}

theorem exists_supplies_of_pinned? (h : pinned? attributes p = some t) :
    ∃ a ∈ attributes, a.value.value.Supplies scope t := by
  induction attributes with
  | nil => cases h
  | cons a rest ih =>
    rw [pinned?] at h
    split at h
    · exact ⟨a, List.mem_cons_self, .inl h⟩
    · obtain ⟨b, hb, hSupplies⟩ := ih h
      exact ⟨b, List.mem_cons_of_mem _ hb, hSupplies⟩

theorem exists_supplies_of_typeOf? (h : typeOf? (c.constraints attributes scope) p = some t) :
    ∃ a ∈ attributes, a.value.value.Supplies scope t := by
  obtain ⟨a, ha, pattern, actual, hRelevant, hMem⟩ := mem_constraints_iff.mp (mem_of_typeOf?_eq_some h)
  exact ⟨a, ha, .inr ⟨actual, hRelevant.known, fun n hn => TypeExpr.mem_names_of_mem_constraints hn hMem⟩⟩

theorem exists_supplies_of_mem_args (h : some t ∈ (c.resolveArgs attributes scope).1) :
    ∃ a ∈ attributes, a.value.value.Supplies scope t := by
  cases hGeneric : c.isGeneric with
  | false =>
    rw [resolveArgs_of_not_generic hGeneric] at h
    cases h
  | true =>
    have hSettles := settles_resolveArgs hGeneric attributes scope
    generalize (c.resolveArgs attributes scope).1 = args at h hSettles
    generalize (c.resolveArgs attributes scope).2 = outcome at hSettles
    cases hSettles <;> obtain ⟨p, -, hSome⟩ := List.mem_map.mp h
    case explicit => exact exists_supplies_of_pinned? hSome
    case missing => exact exists_supplies_of_pinned? hSome
    case conflict => cases hSome
    case inferred => exact exists_supplies_of_typeOf? hSome
    case underspecified => exact exists_supplies_of_typeOf? hSome

end Component
end TypedMarkup
