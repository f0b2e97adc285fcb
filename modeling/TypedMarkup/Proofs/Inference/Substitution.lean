import Mathlib.Data.List.Forall2
import TypedMarkup.Proofs.Inference.Sites

/-! # Inference and substitution

A declared type with types put in for its type parameters is the type of a value. Inference finds the
types that were put in, and types that it finds put in again give the types of the values.
-/
namespace TypedMarkup
set_option autoImplicit false

namespace TypeExpr

mutual
/-- Puts types in for the type parameters that stand without arguments. -/
def subst (params : List String) (s : String → TypeExpr) : TypeExpr → TypeExpr
  | app n as => if as.isEmpty && params.contains n then s n else app n (substArgs params s as)

def substArgs (params : List String) (s : String → TypeExpr) : List TypeExpr → List TypeExpr
  | [] => []
  | a :: rest => subst params s a :: substArgs params s rest
end

theorem substArgs_eq_map (params : List String) (s : String → TypeExpr) (ts : List TypeExpr) :
    substArgs params s ts = ts.map (subst params s) := by
  induction ts with
  | nil => rfl
  | cons t rest ih => rw [substArgs, List.map_cons, ih]

theorem subst_congr {params : List String} {s s' : String → TypeExpr} {t : TypeExpr} :
    (∀ p ∈ params, t.mentions p = true → s p = s' p) → t.subst params s = t.subst params s' := by
  induction t using ind with
  | h n as ih =>
    intro h
    rw [subst, subst, substArgs_eq_map, substArgs_eq_map]
    split
    case isTrue hParam =>
      rw [Bool.and_eq_true, List.contains_iff_mem] at hParam
      apply h n hParam.2
      simp [mentions_app, hParam.1]
    case isFalse =>
      congr 1
      apply List.map_congr_left
      intro a ha
      apply ih a ha
      intro p hp hMention
      apply h p hp
      rw [mentions_app, List.any_eq_true.mpr ⟨a, ha, hMention⟩, Bool.or_true]

mutual
/-- Matched with what substitution makes of it, a type says which types were put in. -/
theorem mem_constraints_subst_iff {params : List String} {s : String → TypeExpr} {c : Constraint} :
    ∀ {t : TypeExpr}, c ∈ t.constraints params (t.subst params s) ↔
      c.param ∈ params ∧ t.mentions c.param = true ∧ c.type = s c.param
  | app n as => by
    rw [subst, constraints, mentions_app]
    by_cases hParam : (as.isEmpty && params.contains n) = true
    · obtain ⟨hEmpty, hMem⟩ := Bool.and_eq_true_iff.mp hParam
      obtain rfl := List.isEmpty_iff.mp hEmpty
      rw [if_pos hParam, if_pos hParam, List.mem_singleton]
      constructor
      · rintro rfl
        exact ⟨List.contains_iff_mem.mp hMem, by simp, rfl⟩
      · rintro ⟨-, hName, hType⟩
        have hName : n = c.param := by simpa using hName
        rw [hName, ← hType]
    · rw [if_neg hParam, if_neg hParam, args, name, if_pos ⟨rfl, by simp [substArgs_eq_map]⟩,
        mem_constraintsOfArgs_subst_iff]
      apply and_congr_right
      intro hMem
      have hHead : (as.isEmpty && n == c.param) = false := by
        rw [Bool.eq_false_iff]
        intro hHead
        obtain ⟨hEmpty, hName⟩ := Bool.and_eq_true_iff.mp hHead
        rw [eq_of_beq hName, hEmpty, List.contains_iff_mem.mpr hMem] at hParam
        exact hParam rfl
      rw [hHead, Bool.false_or, List.any_eq_true]

theorem mem_constraintsOfArgs_subst_iff {params : List String} {s : String → TypeExpr} {c : Constraint} :
    ∀ {ts : List TypeExpr}, c ∈ constraintsOfArgs params ts (substArgs params s ts) ↔
      c.param ∈ params ∧ (∃ t ∈ ts, t.mentions c.param = true) ∧ c.type = s c.param
  | [] => by simp [constraintsOfArgs]
  | t :: rest => by
    rw [substArgs, constraintsOfArgs, List.mem_append, mem_constraints_subst_iff,
      mem_constraintsOfArgs_subst_iff]
    simp only [List.mem_cons, exists_eq_or_imp]
    tauto
end

end TypeExpr

namespace Component
open Attribute Constraint

variable {c : Component} {attributes : List Attribute} {scope : Scope}

/-- An attribute that can tell about type parameters: the declared type of its parameter mentions one,
and the type of its value is known. -/
structure Relevant (c : Component) (scope : Scope) (a : Attribute) (pattern actual : TypeExpr) : Prop where
  declared : ∃ param, c.param? a.name.value = some param ∧ param.type = pattern
  mentions : ∃ p ∈ c.typeParams, pattern.mentions p = true
  known : a.value.value.staticType? scope = some actual

/-- Some relevant attribute is declared with a type that mentions the type parameter. -/
def Told (c : Component) (attributes : List Attribute) (scope : Scope) (p : String) : Prop :=
  ∃ a ∈ attributes, ∃ pattern actual, c.Relevant scope a pattern actual ∧ pattern.mentions p = true

/-- The argument in the slot of a type parameter. -/
def argument? (c : Component) (args : List (Option TypeExpr)) (p : String) : Option TypeExpr :=
  ((c.typeParams.zip args).lookup p).join

theorem argument?_map (f : String → Option TypeExpr) {p : String} (h : p ∈ c.typeParams) :
    c.argument? (c.typeParams.map f) p = f p := by
  rw [argument?]
  generalize c.typeParams = params at h
  induction params with
  | nil => cases h
  | cons q rest ih =>
    by_cases hp : p = q
    · simp [hp]
    · have hRest : p ∈ rest := (List.mem_cons.mp h).resolve_left hp
      simpa [List.lookup_cons, beq_false_of_ne hp] using ih hRest

theorem mem_constraints_iff {k : Constraint} :
    k ∈ c.constraints attributes scope ↔ ∃ a ∈ attributes, ∃ pattern actual,
      c.Relevant scope a pattern actual ∧ k ∈ pattern.constraints c.typeParams actual := by
  rw [constraints, List.mem_flatMap]
  constructor
  · rintro ⟨a, ha, hMem⟩
    split at hMem
    case h_1 param actual hParam hType =>
      obtain ⟨hTypeParam, hMention⟩ := TypeExpr.mentions_of_mem_constraints hMem
      exact ⟨a, ha, param.type, actual, ⟨⟨param, hParam, rfl⟩, ⟨k.param, hTypeParam, hMention⟩, hType⟩, hMem⟩
    case h_2 => cases hMem
  · rintro ⟨a, ha, pattern, actual, ⟨⟨param, hParam, rfl⟩, -, hType⟩, hMem⟩
    refine ⟨a, ha, ?_⟩
    rw [hParam, hType]
    exact hMem

theorem param_mem_of_mem_constraints {k : Constraint} (h : k ∈ c.constraints attributes scope) :
    k.param ∈ c.typeParams := by
  obtain ⟨a, -, pattern, actual, -, hMem⟩ := mem_constraints_iff.mp h
  exact (TypeExpr.mentions_of_mem_constraints hMem).1

theorem constraints_of_not_generic (h : c.isGeneric = false) : c.constraints attributes scope = [] := by
  have hParams : c.typeParams = [] := by simpa [isGeneric] using h
  rw [List.eq_nil_iff_forall_not_mem]
  intro k hk
  have hTypeParam := param_mem_of_mem_constraints hk
  rw [hParams] at hTypeParam
  cases hTypeParam

theorem resolveArgs_of_not_generic (h : c.isGeneric = false) :
    c.resolveArgs attributes scope = ([], .notGeneric) := by
  simp [resolveArgs, h]

theorem no_conflict_iff_agree (hUnpinned : ∀ p ∈ c.typeParams, pinned? attributes p = none) :
    (∀ conflict, (c.resolveArgs attributes scope).2 ≠ .failed (.conflict conflict)) ↔
      Agree (c.constraints attributes scope) := by
  cases hGeneric : c.isGeneric with
  | false => simp [resolveArgs_of_not_generic hGeneric, constraints_of_not_generic hGeneric, Agree]
  | true =>
    constructor
    · intro h
      refine (agree_or_conflict _).resolve_right ?_
      rintro ⟨conflict, hConflict⟩
      apply h conflict
      rw [resolveArgs_of_conflict hGeneric hUnpinned hConflict]
    · intro hAgree conflict
      rw [resolveArgs_of_agree hGeneric hUnpinned hAgree]
      dsimp only
      split <;> simp

theorem args_of_agree (hUnpinned : ∀ p ∈ c.typeParams, pinned? attributes p = none)
    (hAgree : Agree (c.constraints attributes scope)) :
    (c.resolveArgs attributes scope).1 = c.typeParams.map (typeOf? (c.constraints attributes scope)) := by
  cases hGeneric : c.isGeneric with
  | false =>
    have hParams : c.typeParams = [] := by simpa [isGeneric] using hGeneric
    rw [resolveArgs_of_not_generic hGeneric, hParams]
    rfl
  | true => rw [resolveArgs_of_agree hGeneric hUnpinned hAgree]

theorem argument?_of_relevant (hUnpinned : ∀ p ∈ c.typeParams, pinned? attributes p = none)
    (hAgree : Agree (c.constraints attributes scope)) {a : Attribute} (ha : a ∈ attributes)
    {pattern actual : TypeExpr} (hRelevant : c.Relevant scope a pattern actual) {s : String → TypeExpr}
    (hSubst : pattern.subst c.typeParams s = actual) :
    ∀ p ∈ c.typeParams, pattern.mentions p = true →
      c.argument? (c.resolveArgs attributes scope).1 p = some (s p) := by
  intro p hp hMention
  rw [args_of_agree hUnpinned hAgree, argument?_map _ hp, typeOf?_eq_some_iff hAgree, mem_constraints_iff]
  refine ⟨a, ha, pattern, actual, hRelevant, ?_⟩
  rw [← hSubst, TypeExpr.mem_constraints_subst_iff]
  exact ⟨hp, hMention, rfl⟩

section Solved

variable {s : String → TypeExpr}
  (hSolves : ∀ a ∈ attributes, ∀ pattern actual, c.Relevant scope a pattern actual →
    pattern.subst c.typeParams s = actual)
include hSolves

theorem mem_constraints_iff_of_solves {k : Constraint} :
    k ∈ c.constraints attributes scope ↔
      k.param ∈ c.typeParams ∧ c.Told attributes scope k.param ∧ k.type = s k.param := by
  rw [mem_constraints_iff]
  constructor
  · rintro ⟨a, ha, pattern, actual, hRelevant, hMem⟩
    rw [← hSolves a ha pattern actual hRelevant, TypeExpr.mem_constraints_subst_iff] at hMem
    obtain ⟨hParam, hMention, hType⟩ := hMem
    exact ⟨hParam, ⟨a, ha, pattern, actual, hRelevant, hMention⟩, hType⟩
  · rintro ⟨hParam, ⟨a, ha, pattern, actual, hRelevant, hMention⟩, hType⟩
    refine ⟨a, ha, pattern, actual, hRelevant, ?_⟩
    rw [← hSolves a ha pattern actual hRelevant, TypeExpr.mem_constraints_subst_iff]
    exact ⟨hParam, hMention, hType⟩

theorem agree_of_solves : Agree (c.constraints attributes scope) :=
  agree_of_types s fun _ hk => ((mem_constraints_iff_of_solves hSolves).mp hk).2.2

theorem typeOf?_of_told {p : String} (hParam : p ∈ c.typeParams) (hTold : c.Told attributes scope p) :
    typeOf? (c.constraints attributes scope) p = some (s p) :=
  (typeOf?_eq_some_iff (agree_of_solves hSolves)).mpr
    ((mem_constraints_iff_of_solves hSolves).mpr ⟨hParam, hTold, rfl⟩)

theorem typeOf?_of_not_told {p : String} (hTold : ¬ c.Told attributes scope p) :
    typeOf? (c.constraints attributes scope) p = none := by
  rw [typeOf?_eq_none_iff]
  rintro k hk rfl
  exact hTold ((mem_constraints_iff_of_solves hSolves).mp hk).2.1

end Solved

/-- Where no argument is pinned: types that fit all relevant attributes are the ones inferred, and what
is inferred without conflict fits every relevant attribute that any types fit. -/
theorem infers_subst (c : Component) (attributes : List Attribute) (span : Span) (scope : Scope)
    (hUnpinned : ∀ p ∈ c.typeParams, pinned? attributes p = none) :
    (∀ s : String → TypeExpr,
      (∀ a ∈ attributes, ∀ pattern actual, c.Relevant scope a pattern actual →
        pattern.subst c.typeParams s = actual) →
      (∀ conflict, (c.resolve attributes span scope).outcome ≠ .failed (.conflict conflict)) ∧
      List.Forall₂ (fun p arg =>
          (c.Told attributes scope p → arg = some (s p)) ∧ (¬ c.Told attributes scope p → arg = none))
        c.typeParams (c.resolve attributes span scope).args) ∧
    ((∀ conflict, (c.resolve attributes span scope).outcome ≠ .failed (.conflict conflict)) →
      ∀ a ∈ attributes, ∀ pattern actual, c.Relevant scope a pattern actual →
      ∀ s : String → TypeExpr, pattern.subst c.typeParams s = actual →
      (∀ p ∈ c.typeParams, pattern.mentions p = true →
        c.argument? (c.resolve attributes span scope).args p ≠ none) ∧
      pattern.subst c.typeParams
        (fun p => (c.argument? (c.resolve attributes span scope).args p).getD (.named p)) = actual) := by
  constructor
  · intro s hSolves
    refine ⟨(no_conflict_iff_agree hUnpinned).mpr (agree_of_solves hSolves), ?_⟩
    change List.Forall₂ _ _ (c.resolveArgs attributes scope).1
    rw [args_of_agree hUnpinned (agree_of_solves hSolves), List.forall₂_map_right_iff, List.forall₂_same]
    intro p hp
    exact ⟨typeOf?_of_told hSolves hp, typeOf?_of_not_told hSolves⟩
  · intro hNoConflict a ha pattern actual hRelevant s hSubst
    have hAgree := (no_conflict_iff_agree hUnpinned).mp hNoConflict
    have hFound := argument?_of_relevant hUnpinned hAgree ha hRelevant hSubst
    change (∀ p ∈ c.typeParams, _ → c.argument? (c.resolveArgs attributes scope).1 p ≠ none) ∧
      pattern.subst _ (fun p => (c.argument? (c.resolveArgs attributes scope).1 p).getD _) = _
    constructor
    · intro p hp hMention
      rw [hFound p hp hMention]
      exact Option.some_ne_none _
    · rw [← hSubst]
      apply TypeExpr.subst_congr
      intro p hp hMention
      rw [hFound p hp hMention, Option.getD_some]

end Component

def lookupTypes : String → TypeExpr
  | "TKey" => .named "string"
  | _ => .named "double"

theorem lookupTypes_solve : ∀ a ∈ lookupAttributes (.binding "ratio"), ∀ pattern actual,
    lookupComponent.Relevant lookupScope a pattern actual →
      pattern.subst lookupComponent.typeParams lookupTypes = actual := by
  rintro a ha pattern actual ⟨⟨param, hParam, rfl⟩, -, hKnown⟩
  simp only [lookupAttributes, List.mem_cons, List.not_mem_nil, or_false] at ha
  rcases ha with rfl | rfl
  · cases hParam
    cases hKnown
    decide
  · cases hParam
    cases hKnown
    decide

theorem infers_subst_lookup :
    (∀ p ∈ lookupComponent.typeParams, Attribute.pinned? (lookupAttributes (.binding "ratio")) p = none) ∧
    List.Forall₂ (fun p arg =>
        (lookupComponent.Told (lookupAttributes (.binding "ratio")) lookupScope p → arg = some (lookupTypes p)) ∧
        (¬ lookupComponent.Told (lookupAttributes (.binding "ratio")) lookupScope p → arg = none))
      lookupComponent.typeParams
      (lookupComponent.resolve (lookupAttributes (.binding "ratio")) ⟨0, 36⟩ lookupScope).args :=
  ⟨by decide, ((lookupComponent.infers_subst (lookupAttributes (.binding "ratio")) ⟨0, 36⟩ lookupScope
    (by decide)).1 lookupTypes lookupTypes_solve).2⟩

end TypedMarkup
