import TypedMarkup.Proofs.Document.Spelling
import TypedMarkup.Proofs.Inference.TypeArguments

/-! # Other names for type parameters

Names of type parameters stand for nothing but themselves. With new names in the declaration and in the attributes
that are named after them, a site gets the same arguments, and its outcome is about the new names, whatever names
the types of the values are made of.
-/
namespace TypedMarkup
set_option autoImplicit false

/-- New names for the type parameters that stand without arguments. -/
def TypeExpr.renamed (params : List String) (f : String → String) (t : TypeExpr) : TypeExpr :=
  t.subst params fun p => .named (f p)

def Constraint.renamed (f : String → String) (k : Constraint) : Constraint := ⟨f k.param, k.type⟩

def Conflict.renamed (f : String → String) (conflict : Conflict) : Conflict :=
  ⟨f conflict.param, conflict.first, conflict.second⟩

def Problem.renamed (f : String → String) : Problem → Problem
  | missing params => missing (params.map f)
  | underspecified params => underspecified (params.map f)
  | conflict c => conflict (c.renamed f)

def Outcome.renamed (f : String → String) : Outcome → Outcome
  | failed p => failed (p.renamed f)
  | o => o

def Resolution.renamed (f : String → String) (r : Resolution) : Resolution := { r with outcome := r.outcome.renamed f }

def Attribute.withName (a : Attribute) (name : String) : Attribute := { a with name := ⟨name, a.name.span⟩ }

namespace TypeExpr

variable {params : List String} {f : String → String}

mutual
theorem constraints_renamed : ∀ {t actual : TypeExpr}, (∀ n ∈ t.names, n ∉ params.map f) →
    (t.renamed params f).constraints (params.map f) actual = (t.constraints params actual).map (Constraint.renamed f)
  | app n as, actual, hFresh => by
    rw [renamed, subst, constraints]
    by_cases hParam : (as.isEmpty && params.contains n) = true
    · have hMem : n ∈ params := List.contains_iff_mem.mp (Bool.and_eq_true_iff.mp hParam).2
      have hNew : (params.map f).contains (f n) = true := List.contains_iff_mem.mpr (List.mem_map_of_mem hMem)
      rw [if_pos hParam, if_pos hParam, named, constraints, List.isEmpty_nil, hNew]
      rfl
    · -- The head is no new name, so that here too it is compared as a constructor.
      have hHead : (params.map f).contains n = false := by
        rw [← Bool.not_eq_true, List.contains_iff_mem]
        exact hFresh n (by simp [names_app])
      have hArgs : ∀ n ∈ namesOfArgs as, n ∉ params.map f := by
        intro m hm
        apply hFresh
        rw [names]
        exact List.mem_cons_of_mem _ hm
      rw [if_neg hParam, if_neg hParam, constraints, hHead, Bool.and_false, if_neg Bool.false_ne_true, substArgs_eq_map,
        List.length_map]
      split
      · rw [← substArgs_eq_map]
        exact constraintsOfArgs_renamed hArgs
      · rfl

theorem constraintsOfArgs_renamed : ∀ {ts actuals : List TypeExpr}, (∀ n ∈ namesOfArgs ts, n ∉ params.map f) →
    constraintsOfArgs (params.map f) (substArgs params (fun p => .named (f p)) ts) actuals =
      (constraintsOfArgs params ts actuals).map (Constraint.renamed f)
  | [], _, _ => by simp [substArgs, constraintsOfArgs]
  | _ :: _, [], _ => by simp [substArgs, constraintsOfArgs]
  | t :: ts, a :: as, hFresh => by
    have hHead : ∀ n ∈ t.names, n ∉ params.map f := fun n hn => hFresh n (List.mem_append_left _ hn)
    have hRest : ∀ n ∈ namesOfArgs ts, n ∉ params.map f := fun n hn => hFresh n (List.mem_append_right _ hn)
    rw [substArgs, constraintsOfArgs, constraintsOfArgs, List.map_append, constraintsOfArgs_renamed hRest]
    congr 1
    exact constraints_renamed hHead
end

end TypeExpr

/-! ## Lists under new names -/

section Names

variable {params : List String} {f : String → String} {g g' : String → Option TypeExpr}

theorem map_map_renamed (h : ∀ p ∈ params, g' (f p) = g p) : (params.map f).map g' = params.map g := by
  rw [List.map_map]
  exact List.map_congr_left h

theorem filter_map_renamed (h : ∀ p ∈ params, g' (f p) = g p) :
    ((params.map f).filter fun p => g' p = none) = (params.filter fun p => g p = none).map f := by
  rw [List.filter_map]
  congr 1
  apply List.filter_congr
  intro p hp
  simp [h p hp]

end Names

namespace Constraint

variable {params : List String} {f : String → String} {cs : List Constraint}
  (hInjective : ∀ p ∈ params, ∀ q ∈ params, f p = f q → p = q)
include hInjective

theorem typeOf?_renamed (hParams : ∀ k ∈ cs, k.param ∈ params) {p : String} (hp : p ∈ params) :
    typeOf? (cs.map (renamed f)) (f p) = typeOf? cs p := by
  rw [typeOf?, typeOf?, List.find?_map, Option.map_map]
  have hFind : cs.find? ((fun k => decide (k.param = f p)) ∘ renamed f) = cs.find? fun k => k.param = p := by
    induction cs with
    | nil => rfl
    | cons k rest ih =>
      have hRest := ih fun l hl => hParams l (List.mem_cons_of_mem _ hl)
      have hHead : f k.param = f p ↔ k.param = p :=
        ⟨hInjective _ (hParams k List.mem_cons_self) _ hp, congrArg f⟩
      simp only [List.find?_cons, Function.comp_apply, renamed, hHead] at hRest ⊢
      rw [hRest]
  rw [hFind]
  rfl

theorem Agree.renamed (hParams : ∀ k ∈ cs, k.param ∈ params) (h : Agree cs) : Agree (cs.map (renamed f)) := by
  intro _ hMem _ hMem' hSame
  obtain ⟨k, hk, rfl⟩ := List.mem_map.mp hMem
  obtain ⟨l, hl, rfl⟩ := List.mem_map.mp hMem'
  exact h k hk l hl (hInjective _ (hParams k hk) _ (hParams l hl) hSame)

end Constraint

theorem Conflict.IsEarliestIn.renamed {params : List String} {f : String → String} {cs : List Constraint}
    {conflict : Conflict} (h : conflict.IsEarliestIn cs) (hParams : ∀ k ∈ cs, k.param ∈ params)
    (hInjective : ∀ p ∈ params, ∀ q ∈ params, f p = f q → p = q) :
    (conflict.renamed f).IsEarliestIn (cs.map (Constraint.renamed f)) := by
  obtain ⟨before, after, rfl, hAgree, hFirst, hDiffer⟩ := h
  refine ⟨before.map (Constraint.renamed f), after.map (Constraint.renamed f), ?_, ?_, List.mem_map_of_mem hFirst,
    hDiffer⟩
  · rw [List.map_append]
    rfl
  · exact hAgree.renamed hInjective fun k hk => hParams k (List.mem_append_left _ hk)

namespace Component
open Attribute Constraint

variable {c : Component} {attributes attributes' : List Attribute} {scope : Scope} {f : String → String}

/-- The component with new names for its type parameters. -/
def renamed (f : String → String) (c : Component) : Component where
  name := c.name
  typeParams := c.typeParams.map f
  params := c.params.map fun q => ⟨q.name, q.type.renamed c.typeParams f⟩
  span := c.span

/-- No two of the new names are one, and none is used in the component or in a tag. -/
structure NewNames (c : Component) (attributes : List Attribute) (f : String → String) : Prop where
  injective : ∀ p ∈ c.typeParams, ∀ q ∈ c.typeParams, f p = f q → p = q
  params : ∀ p ∈ c.typeParams, ∀ q ∈ c.params, f p ≠ q.name
  types : ∀ p ∈ c.typeParams, ∀ q ∈ c.params, f p ∉ q.type.names
  attributes : ∀ p ∈ c.typeParams, ∀ a ∈ attributes, f p ≠ a.name.value

/-- The second attributes are the first, with the new name on each that is named after a type parameter. One that
names no type may keep its name, unless one behind it gives a type under that name. -/
inductive Renames (c : Component) (f : String → String) : List Attribute → List Attribute → Prop
  | nil : Renames c f [] []
  | renamed {a : Attribute} (hParam : a.name.value ∈ c.typeParams) {as as' : List Attribute} (h : Renames c f as as') :
      Renames c f (a :: as) (a.withName (f a.name.value) :: as')
  | other {a : Attribute} (hOther : a.name.value ∉ c.typeParams) {as as' : List Attribute} (h : Renames c f as as') :
      Renames c f (a :: as) (a :: as')
  | kept {a : Attribute} (hParam : a.name.value ∈ c.typeParams) (hNone : a.value.value.namedType? = none)
      {as as' : List Attribute} (hBehind : pinned? as a.name.value = none) (h : Renames c f as as') :
      Renames c f (a :: as) (a :: as')

theorem renames_map (c : Component) (f : String → String) (attributes : List Attribute) :
    c.Renames f attributes
      (attributes.map fun a => if a.name.value ∈ c.typeParams then a.withName (f a.name.value) else a) := by
  induction attributes with
  | nil => exact .nil
  | cons a rest ih =>
    rw [List.map_cons]
    split
    case isTrue hParam => exact .renamed hParam ih
    case isFalse hOther => exact .other hOther ih

theorem NewNames.of_cons {a : Attribute} {rest : List Attribute} (h : c.NewNames (a :: rest) f) :
    c.NewNames rest f where
  injective := h.injective
  params := h.params
  types := h.types
  attributes p hp b hb := h.attributes p hp b (List.mem_cons_of_mem _ hb)

theorem forall_mem_renamed {P : String → Prop} (h : ∀ p ∈ c.typeParams, P (f p)) :
    ∀ p ∈ (c.renamed f).typeParams, P p :=
  List.forall_mem_map.mpr h

theorem param?_renamed (c : Component) (f : String → String) (name : String) :
    (c.renamed f).param? name = (c.param? name).map fun q => ⟨q.name, q.type.renamed c.typeParams f⟩ := by
  rw [param?, renamed, List.find?_map]
  rfl

theorem Renames.pinned?_eq (h : c.Renames f attributes attributes') (hNew : c.NewNames attributes f) {p : String}
    (hp : p ∈ c.typeParams) : pinned? attributes' (f p) = pinned? attributes p := by
  induction h with
  | nil => rfl
  | @renamed a hParam as as' _ ih =>
    have hName : f a.name.value = f p ↔ a.name.value = p := ⟨hNew.injective _ hParam _ hp, congrArg f⟩
    rw [pinned?, pinned?, withName, ih hNew.of_cons]
    simp only [hName]
  | @other a hOther as as' _ ih =>
    have hName : a.name.value ≠ p := by
      rintro rfl
      exact hOther hp
    rw [pinned?, pinned?, if_neg hName, if_neg (hNew.attributes p hp a List.mem_cons_self).symm, ih hNew.of_cons]
  | @kept a hParam hNone as as' hBehind _ ih =>
    rw [pinned?, pinned?, if_neg (hNew.attributes p hp a List.mem_cons_self).symm, ih hNew.of_cons]
    split
    case isTrue hName => rw [hNone, ← hName, hBehind]
    case isFalse => rfl

theorem constraints_cons_of_not_param {a : Attribute} (h : c.param? a.name.value = none) (rest : List Attribute) :
    c.constraints (a :: rest) scope = c.constraints rest scope := by
  rw [constraints, constraints, List.flatMap_cons, h]
  rfl

theorem Renames.constraints_eq (h : c.Renames f attributes attributes') (hNew : c.NewNames attributes f)
    (hSeparate : ∀ q ∈ c.params, q.name ∉ c.typeParams) :
    (c.renamed f).constraints attributes' scope = (c.constraints attributes scope).map (Constraint.renamed f) := by
  -- An attribute named after a type parameter is named after no parameter, under its old and under its new name.
  have hOld : ∀ p ∈ c.typeParams, c.param? p = none := by
    intro p hp
    rw [param?, List.find?_eq_none]
    intro q hq hName
    exact hSeparate q hq (by rwa [of_decide_eq_true hName])
  have hFresh : ∀ p ∈ c.typeParams, c.param? (f p) = none := by
    intro p hp
    rw [param?, List.find?_eq_none]
    intro q hq hName
    exact hNew.params p hp q hq (of_decide_eq_true hName).symm
  induction h with
  | nil => rfl
  | @renamed a hParam as as' _ ih =>
    rw [constraints_cons_of_not_param (hOld _ hParam), constraints_cons_of_not_param, ih hNew.of_cons]
    rw [param?_renamed, withName, hFresh _ hParam, Option.map_none]
  | @kept a hParam hNone as as' hBehind _ ih =>
    rw [constraints_cons_of_not_param (hOld _ hParam), constraints_cons_of_not_param, ih hNew.of_cons]
    rw [param?_renamed, hOld _ hParam, Option.map_none]
  | @other a hOther as as' _ ih =>
    rw [constraints, constraints, List.flatMap_cons, List.flatMap_cons, ← constraints, ← constraints, List.map_append,
      ih hNew.of_cons, param?_renamed]
    congr 1
    cases hParam : c.param? a.name.value with
    | none => rfl
    | some q =>
      have hq : q ∈ c.params := List.mem_of_find?_eq_some hParam
      cases a.value.value.staticType? scope with
      | none => rfl
      | some actual =>
        apply TypeExpr.constraints_renamed
        intro n hn hName
        obtain ⟨p, hp, rfl⟩ := List.mem_map.mp hName
        exact hNew.types p hp q hq hn

/-- What settles a site settles it under the new names. -/
theorem Renames.settles (h : c.Renames f attributes attributes') (hNew : c.NewNames attributes f)
    (hSeparate : ∀ q ∈ c.params, q.name ∉ c.typeParams) {args : List (Option TypeExpr)} {outcome : Outcome}
    (hSettles : c.Settles attributes scope args outcome) :
    (c.renamed f).Settles attributes' scope args (outcome.renamed f) := by
  have hPinned : ∀ p ∈ c.typeParams, pinned? attributes' (f p) = pinned? attributes p := by
    intro p hp
    exact h.pinned?_eq hNew hp
  have hConstraints : (c.renamed f).constraints attributes' scope =
      (c.constraints attributes scope).map (Constraint.renamed f) := h.constraints_eq hNew hSeparate
  have hParams : ∀ k ∈ c.constraints attributes scope, k.param ∈ c.typeParams := by
    intro k hk
    exact param_mem_of_mem_constraints hk
  have hFound : ∀ p ∈ c.typeParams, typeOf? ((c.renamed f).constraints attributes' scope) (f p) =
      typeOf? (c.constraints attributes scope) p := by
    intro p hp
    rw [hConstraints, typeOf?_renamed hNew.injective hParams hp]
  have hUnpinned' : (∀ p ∈ c.typeParams, pinned? attributes p = none) →
      ∀ p ∈ (c.renamed f).typeParams, pinned? attributes' p = none := by
    intro hUnpinned
    apply forall_mem_renamed
    intro p hp
    rw [hPinned p hp, hUnpinned p hp]
  have hAgree' : Agree (c.constraints attributes scope) → Agree ((c.renamed f).constraints attributes' scope) := by
    intro hAgree
    rw [hConstraints]
    exact hAgree.renamed hNew.injective hParams
  cases hSettles with
  | explicit hAll =>
    rw [← map_map_renamed hPinned]
    apply Settles.explicit
    apply forall_mem_renamed
    intro p hp
    rw [hPinned p hp]
    exact hAll p hp
  | missing hSome hMissing =>
    obtain ⟨q, hq, hGiven⟩ := hSome
    obtain ⟨m, hm, hNone⟩ := hMissing
    rw [Outcome.renamed, Problem.renamed, ← map_map_renamed hPinned, ← filter_map_renamed hPinned]
    apply Settles.missing
    · exact ⟨f q, List.mem_map_of_mem hq, by rwa [hPinned q hq]⟩
    · exact ⟨f m, List.mem_map_of_mem hm, by rwa [hPinned m hm]⟩
  | conflict hUnpinned conflict hConflict =>
    have hNone : (c.typeParams.map fun _ => (none : Option TypeExpr)) = (c.renamed f).typeParams.map fun _ => none := by
      rw [Component.renamed, List.map_map]
      rfl
    rw [hNone]
    apply Settles.conflict (hUnpinned' hUnpinned)
    rw [hConstraints]
    exact hConflict.renamed hParams hNew.injective
  | inferred hUnpinned hAgree hAll =>
    rw [← map_map_renamed hFound]
    apply Settles.inferred (hUnpinned' hUnpinned) (hAgree' hAgree)
    apply forall_mem_renamed
    intro p hp
    rw [hFound p hp]
    exact hAll p hp
  | underspecified hUnpinned hAgree hUnbound =>
    obtain ⟨q, hq, hNone⟩ := hUnbound
    rw [Outcome.renamed, Problem.renamed, ← map_map_renamed hFound, ← filter_map_renamed hFound]
    apply Settles.underspecified (hUnpinned' hUnpinned) (hAgree' hAgree)
    exact ⟨f q, List.mem_map_of_mem hq, by rwa [hFound q hq]⟩

/-- Under new names for its type parameters a component gets the same arguments at a site, and the outcome is about
the new names, whatever names stand in the scope. -/
theorem resolve_renamed (c : Component) (span : Span) (scope : Scope)
    (hSeparate : ∀ q ∈ c.params, q.name ∉ c.typeParams) (hNew : c.NewNames attributes f)
    (hRenames : c.Renames f attributes attributes') :
    (c.renamed f).resolve attributes' span scope = (c.resolve attributes span scope).renamed f := by
  have hArgs : (c.renamed f).resolveArgs attributes' scope =
      ((c.resolveArgs attributes scope).1, (c.resolveArgs attributes scope).2.renamed f) := by
    cases hGeneric : c.isGeneric with
    | false =>
      have hGeneric' : (c.renamed f).isGeneric = false := by simpa [isGeneric, Component.renamed] using hGeneric
      rw [resolveArgs_of_not_generic hGeneric, resolveArgs_of_not_generic hGeneric']
      rfl
    | true =>
      have hGeneric' : (c.renamed f).isGeneric = true := by simpa [isGeneric, Component.renamed] using hGeneric
      exact (hRenames.settles hNew hSeparate (settles_resolveArgs hGeneric attributes scope)).eq_resolveArgs hGeneric'
  rw [resolve, hArgs]
  rfl

end Component

/-- The types in this scope are made of the names of the type parameters, old and new. -/
def namesakeScope : Scope where
  bindings := [("index", .app "Dictionary" [.named "V", .app "List" [.named "TKey"]])]

def shortNames : String → String
  | "TKey" => "K"
  | "TValue" => "V"
  | name => name

/-- A key that names no type, so that the type arguments are inferred. -/
def keyedAttributes : List Attribute := keyAttribute (.integer 3) :: lookupAttributes (.integer 3)

theorem shortNames_newNames : lookupComponent.NewNames keyedAttributes shortNames where
  injective := by decide
  params := by decide
  types := by decide
  attributes := by decide

theorem resolve_renamed_lookup :
    (∀ q ∈ lookupComponent.params, q.name ∉ lookupComponent.typeParams) ∧
    lookupComponent.NewNames keyedAttributes shortNames ∧
    lookupComponent.Renames shortNames keyedAttributes
      ((keyAttribute (.integer 3)).withName "K" :: lookupAttributes (.integer 3)) ∧
    ((lookupComponent.renamed shortNames).resolve
        ((keyAttribute (.integer 3)).withName "K" :: lookupAttributes (.integer 3)) ⟨0, 36⟩ namesakeScope).outcome =
      .failed (.conflict ⟨"V", .named "TKey", .named "int"⟩) := by
  have hSeparate : ∀ q ∈ lookupComponent.params, q.name ∉ lookupComponent.typeParams := by decide
  have hRenames : lookupComponent.Renames shortNames keyedAttributes
      ((keyAttribute (.integer 3)).withName "K" :: lookupAttributes (.integer 3)) :=
    lookupComponent.renames_map shortNames keyedAttributes
  refine ⟨hSeparate, shortNames_newNames, hRenames, ?_⟩
  rw [lookupComponent.resolve_renamed ⟨0, 36⟩ namesakeScope hSeparate shortNames_newNames hRenames]
  decide

end TypedMarkup
