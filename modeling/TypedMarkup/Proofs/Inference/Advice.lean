import TypedMarkup.Proofs.Inference.TypeArguments

/-! # Following the advice of a diagnostic

A diagnostic advises to give the type arguments that it names by attributes. Since arguments are given all or
none, this mends a site at once if the diagnostic names all that are not given. Otherwise a second
diagnostic names the others, and its advice mends the site.
-/
namespace TypedMarkup
set_option autoImplicit false

namespace Problem

/-- The type parameters that the message advises to give by attributes. -/
def advised : Problem → List String
  | missing params => params
  | underspecified params => params
  | conflict c => [c.param]

def isMissing : Problem → Bool
  | missing _ => true
  | _ => false

end Problem

/-- Attributes that give a type to each of these type parameters, and nothing else. -/
structure Attribute.Give (given : List Attribute) (params : List String) : Prop where
  type : ∀ a ∈ given, ∃ t, a.value.value = .type t
  only : ∀ a ∈ given, a.name.value ∈ params
  each : ∀ p ∈ params, ∃ a ∈ given, a.name.value = p

namespace Attribute

theorem pinned?_ne_none_of_types {given : List Attribute} (hType : ∀ a ∈ given, ∃ t, a.value.value = .type t)
    {param : String} (hNamed : ∃ a ∈ given, a.name.value = param) (attributes : List Attribute) :
    pinned? (given ++ attributes) param ≠ none := by
  -- The attribute that counts need not be the one in the hypothesis, but it gives a type as well.
  induction given with
  | nil =>
    obtain ⟨a, ha, -⟩ := hNamed
    cases ha
  | cons b rest ih =>
    rw [List.cons_append, pinned?]
    split
    case isTrue =>
      obtain ⟨t, ht⟩ := hType b List.mem_cons_self
      rw [ht]
      exact Option.some_ne_none t
    case isFalse hName =>
      obtain ⟨a, ha, hParam⟩ := hNamed
      rcases List.mem_cons.mp ha with rfl | ha
      · exact absurd hParam hName
      · exact ih (fun a' ha' => hType a' (List.mem_cons_of_mem _ ha')) ⟨a, ha, hParam⟩

theorem Give.pinned?_ne_none {given : List Attribute} {params : List String} (h : Give given params) {p : String}
    (hp : p ∈ params) (attributes : List Attribute) : pinned? (given ++ attributes) p ≠ none :=
  pinned?_ne_none_of_types h.type (h.each p hp) attributes

theorem Give.pinned?_of_not_mem {given : List Attribute} {params : List String} (h : Give given params) {p : String}
    (hp : p ∉ params) (attributes : List Attribute) : pinned? (given ++ attributes) p = pinned? attributes p := by
  apply pinned?_append_of_ne
  rintro a ha rfl
  exact hp (h.only a ha)

end Attribute

namespace Component
open Attribute Constraint

variable {c : Component} {attributes given : List Attribute} {scope : Scope} {p : Problem}

theorem isGeneric_of_failed (h : (c.resolveArgs attributes scope).2 = .failed p) : c.isGeneric = true := by
  cases hGeneric : c.isGeneric with
  | true => rfl
  | false =>
    rw [resolveArgs_of_not_generic hGeneric] at h
    cases h

theorem settles_of_failed (h : (c.resolveArgs attributes scope).2 = .failed p) :
    c.Settles attributes scope (c.resolveArgs attributes scope).1 (.failed p) := by
  rw [← h]
  exact settles_resolveArgs (isGeneric_of_failed h) attributes scope

/-- What a failing site does not advise to give is given if some arguments are missing, and is not given
otherwise. -/
theorem pinned?_of_not_advised (h : (c.resolveArgs attributes scope).2 = .failed p) {q : String}
    (hq : q ∈ c.typeParams) (hAdvised : q ∉ p.advised) : pinned? attributes q ≠ none ↔ p.isMissing = true := by
  have hSettles := settles_of_failed h
  generalize (c.resolveArgs attributes scope).1 = args at hSettles
  cases hSettles with
  | missing _ _ =>
    have hPinned : pinned? attributes q ≠ none := by
      intro hNone
      exact hAdvised (List.mem_filter.mpr ⟨hq, by simpa using hNone⟩)
    simpa [Problem.isMissing] using hPinned
  | conflict hUnpinned => simp [Problem.isMissing, hUnpinned q hq]
  | underspecified hUnpinned => simp [Problem.isMissing, hUnpinned q hq]

theorem exists_advised (h : (c.resolveArgs attributes scope).2 = .failed p) : ∃ q ∈ c.typeParams, q ∈ p.advised := by
  have hSettles := settles_of_failed h
  generalize (c.resolveArgs attributes scope).1 = args at hSettles
  cases hSettles with
  | missing _ hMissing =>
    obtain ⟨q, hq, hNone⟩ := hMissing
    exact ⟨q, hq, List.mem_filter.mpr ⟨hq, by simpa using hNone⟩⟩
  | conflict _ conflict hConflict =>
    exact ⟨conflict.param, param_mem_of_isEarliestIn hConflict, List.mem_singleton.mpr rfl⟩
  | underspecified _ _ hUnbound =>
    obtain ⟨q, hq, hNone⟩ := hUnbound
    exact ⟨q, hq, List.mem_filter.mpr ⟨hq, by simpa using hNone⟩⟩

theorem outcome_of_advice_complete (h : (c.resolveArgs attributes scope).2 = .failed p) (hGive : Give given p.advised)
    (hComplete : p.isMissing = true ∨ ∀ q ∈ c.typeParams, q ∈ p.advised) :
    (c.resolveArgs (given ++ attributes) scope).2 = .explicit := by
  rw [resolveArgs_of_all_pinned (isGeneric_of_failed h)]
  intro q hq
  by_cases hAdvised : q ∈ p.advised
  · exact hGive.pinned?_ne_none hAdvised attributes
  · rw [hGive.pinned?_of_not_mem hAdvised, pinned?_of_not_advised h hq hAdvised]
    rcases hComplete with hMissing | hAll
    · exact hMissing
    · exact absurd (hAll q hq) hAdvised

theorem outcome_of_advice_incomplete (h : (c.resolveArgs attributes scope).2 = .failed p)
    (hGive : Give given p.advised) (hMissing : p.isMissing = false) (hOther : ∃ q ∈ c.typeParams, q ∉ p.advised) :
    (c.resolveArgs (given ++ attributes) scope).2 =
      .failed (.missing (c.typeParams.filter fun q => q ∉ p.advised)) := by
  have hNone : ∀ q ∈ c.typeParams, pinned? (given ++ attributes) q = none ↔ q ∉ p.advised := by
    intro q hq
    constructor
    · intro hNone hAdvised
      exact hGive.pinned?_ne_none hAdvised attributes hNone
    · intro hAdvised
      have hNot : ¬ pinned? attributes q ≠ none := by
        rw [pinned?_of_not_advised h hq hAdvised, hMissing]
        exact Bool.false_ne_true
      rw [hGive.pinned?_of_not_mem hAdvised]
      exact Classical.not_not.mp hNot
  obtain ⟨q, hq, hAdvised⟩ := exists_advised h
  obtain ⟨q', hq', hUnadvised⟩ := hOther
  rw [resolveArgs_of_some_pinned (isGeneric_of_failed h) ⟨q, hq, hGive.pinned?_ne_none hAdvised attributes⟩
    ⟨q', hq', (hNone q' hq').mpr hUnadvised⟩]
  have hFilter : (c.typeParams.filter fun q => pinned? (given ++ attributes) q = none) =
      c.typeParams.filter fun q => q ∉ p.advised := by
    apply List.filter_congr
    intro q hq
    exact decide_eq_decide.mpr (hNone q hq)
  rw [hFilter]

/-- With the advised arguments given in front of its other attributes, a failing site is explicit if some
arguments were given before or if the advice is about all of them. Otherwise just those that the advice
left out are missing, and with these given too the site is explicit. -/
theorem advice_repairs (c : Component) (attributes : List Attribute) (span : Span) (scope : Scope) {p : Problem}
    (hFails : (c.resolve attributes span scope).outcome = .failed p) {given : List Attribute}
    (hGive : Give given p.advised) :
    ((p.isMissing = true ∨ ∀ q ∈ c.typeParams, q ∈ p.advised) →
      (c.resolve (given ++ attributes) span scope).outcome = .explicit ∧
      (c.resolve (given ++ attributes) span scope).diagnostic? = none) ∧
    (p.isMissing = false → (∃ q ∈ c.typeParams, q ∉ p.advised) →
      (c.resolve (given ++ attributes) span scope).outcome =
        .failed (.missing (c.typeParams.filter fun q => q ∉ p.advised)) ∧
      ∀ others, Give others (c.typeParams.filter fun q => q ∉ p.advised) →
        (c.resolve (others ++ (given ++ attributes)) span scope).diagnostic? = none) := by
  have hNoDiagnostic : ∀ attributes', (c.resolveArgs attributes' scope).2 = .explicit →
      (c.resolve attributes' span scope).diagnostic? = none := by
    intro attributes' hExplicit
    have hOutcome : (c.resolve attributes' span scope).outcome = .explicit := hExplicit
    rw [Resolution.diagnostic?, hOutcome]
  constructor
  · intro hComplete
    have hExplicit := outcome_of_advice_complete hFails hGive hComplete
    exact ⟨hExplicit, hNoDiagnostic _ hExplicit⟩
  · intro hMissing hOther
    have hSecond := outcome_of_advice_incomplete hFails hGive hMissing hOther
    refine ⟨hSecond, ?_⟩
    intro others hOthers
    exact hNoDiagnostic _ (outcome_of_advice_complete hSecond hOthers (.inl rfl))

end Component

def fallbackAttributes : List Attribute := [⟨⟨"Fallback", ⟨8, 16⟩⟩, ⟨.integer 3, ⟨17, 18⟩⟩, ⟨8, 18⟩⟩]

theorem give_key : Attribute.Give [keyAttribute (.type (.named "string"))] ["TKey"] where
  type a ha := ⟨.named "string", by rw [List.mem_singleton.mp ha]; rfl⟩
  only a ha := by rw [List.mem_singleton.mp ha]; exact List.mem_singleton.mpr rfl
  each p hp := ⟨_, List.mem_singleton.mpr rfl, (List.mem_singleton.mp hp).symm⟩

/-- With a value inferred, the advice is about the key only. With the key given, the value is missing. -/
theorem advice_not_sufficient :
    (lookupComponent.resolve fallbackAttributes ⟨0, 20⟩ lookupScope).outcome =
      .failed (.underspecified ["TKey"]) ∧
    Attribute.Give [keyAttribute (.type (.named "string"))] (Problem.underspecified ["TKey"]).advised ∧
    (lookupComponent.resolve (keyAttribute (.type (.named "string")) :: fallbackAttributes) ⟨0, 20⟩
      lookupScope).diagnostic? = some ⟨.missing ["TValue"], "Lookup", ⟨0, 20⟩⟩ :=
  ⟨by decide, give_key, by decide⟩

theorem advice_repairs_lookup :
    (lookupComponent.resolve fallbackAttributes ⟨0, 20⟩ lookupScope).outcome =
      .failed (.underspecified ["TKey"]) ∧
    Attribute.Give [keyAttribute (.type (.named "string"))] (Problem.underspecified ["TKey"]).advised ∧
    (lookupComponent.resolve (keyAttribute (.type (.named "string")) :: fallbackAttributes) ⟨0, 20⟩
      lookupScope).outcome = .failed (.missing ["TValue"]) :=
  ⟨by decide, give_key, ((lookupComponent.advice_repairs fallbackAttributes ⟨0, 20⟩ lookupScope
    (p := .underspecified ["TKey"]) (by decide) give_key).2 rfl ⟨"TValue", by decide, by decide⟩).1⟩

end TypedMarkup
