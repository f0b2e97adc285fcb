import TypedMarkup.Proofs.Inference.Growth

/-! # What a match can change

A match assigns types to type parameters that the declared type mentions, and only to those that have none yet, be it
that it ends at a conflict. So it makes no difference that inference passes over parameters whose types mention no
type parameter.
-/
namespace TypedMarkup
set_option autoImplicit false

namespace Assignment

/-- What is assigned when a match ends, and the conflict if it ends at one. -/
structure Ending where
  assigned : Assignment
  conflict? : Option Conflict

def Ending.result (e : Ending) : Except Conflict Assignment :=
  match e.conflict? with
  | none => .ok e.assigned
  | some conflict => .error conflict

def assignEnding (s : Assignment) (param : String) (t : TypeExpr) : Ending :=
  match s.assign param t with
  | .ok s' => ⟨s', none⟩
  | .error conflict => ⟨s, some conflict⟩

mutual
/-- Matches types as `unify` does, and keeps what is assigned before a conflict. -/
def unifyEnding (params : List String) : Assignment → TypeExpr → TypeExpr → Ending
  | s, .app p ps, actual =>
    if ps.isEmpty && params.contains p then s.assignEnding p actual
    else if p = actual.name ∧ ps.length = actual.args.length then unifyArgsEnding params s ps actual.args
    else ⟨s, none⟩

def unifyArgsEnding (params : List String) : Assignment → List TypeExpr → List TypeExpr → Ending
  | s, p :: ps, a :: as =>
    match unifyEnding params s p a with
    | ⟨s', none⟩ => unifyArgsEnding params s' ps as
    | ⟨s', some conflict⟩ => ⟨s', some conflict⟩
  | s, _, _ => ⟨s, none⟩
end

theorem result_assignEnding (s : Assignment) (param : String) (t : TypeExpr) :
    (s.assignEnding param t).result = s.assign param t := by
  rw [assignEnding]
  cases s.assign param t <;> rfl

mutual
theorem result_unifyEnding (params : List String) :
    ∀ (s : Assignment) (pattern actual : TypeExpr),
      (unifyEnding params s pattern actual).result = unify params s pattern actual
  | s, .app p ps, actual => by
    rw [unifyEnding, unify]
    split
    · exact result_assignEnding s p actual
    · split
      · exact result_unifyArgsEnding params s ps actual.args
      · rfl

theorem result_unifyArgsEnding (params : List String) :
    ∀ (s : Assignment) (patterns actuals : List TypeExpr),
      (unifyArgsEnding params s patterns actuals).result = unifyArgs params s patterns actuals
  | s, p :: ps, a :: as => by
    rw [unifyArgsEnding, unifyArgs, ← result_unifyEnding params s p a]
    split
    case h_1 s' hHead =>
      rw [hHead]
      exact result_unifyArgsEnding params s' ps as
    case h_2 s' conflict hHead =>
      rw [hHead]
      rfl
  | s, [], _ => rfl
  | s, _ :: _, [] => rfl
end

/-- What `s` assigns has not changed. What is assigned beside it, and what a conflict is about, are parameters of the
kind, and a conflict is with the type assigned. -/
structure Ending.StaysWithin (e : Ending) (kind : String → Prop) (s : Assignment) : Prop where
  keeps (p : String) (t : TypeExpr) : s p = some t → e.assigned p = some t
  changes (p : String) : e.assigned p ≠ s p → kind p
  reports (conflict : Conflict) : e.conflict? = some conflict →
    kind conflict.param ∧ e.assigned conflict.param = some conflict.first ∧ conflict.first ≠ conflict.second

namespace Ending.StaysWithin

variable {kind kind' : String → Prop} {s s' : Assignment} {e : Ending}

theorem start (kind : String → Prop) (s : Assignment) : StaysWithin ⟨s, none⟩ kind s where
  keeps _ _ := id
  changes _ h := absurd rfl h
  reports _ := nofun

theorem mono (h : e.StaysWithin kind s) (hKind : ∀ p, kind p → kind' p) : e.StaysWithin kind' s where
  keeps := h.keeps
  changes p hp := hKind p (h.changes p hp)
  reports conflict hConflict := (h.reports conflict hConflict).imp_left (hKind conflict.param)

theorem trans (hFirst : StaysWithin ⟨s', none⟩ kind s) (h : e.StaysWithin kind s') : e.StaysWithin kind s where
  keeps p t hp := h.keeps p t (hFirst.keeps p t hp)
  changes p hp := by
    by_cases hSame : e.assigned p = s' p
    · rw [hSame] at hp
      exact hFirst.changes p hp
    · exact h.changes p hSame
  reports := h.reports

end Ending.StaysWithin

theorem staysWithin_assignEnding (s : Assignment) (param : String) (t : TypeExpr) :
    (s.assignEnding param t).StaysWithin (· = param) s := by
  rw [assignEnding, assign]
  cases hType : s param with
  | none =>
    refine ⟨?_, ?_, ?_⟩
    · intro p t' hp
      have hOther : p ≠ param := by
        rintro rfl
        rw [hType] at hp
        cases hp
      exact (if_neg hOther).trans hp
    · intro p hp
      by_contra hOther
      exact hp (if_neg hOther)
    · intro conflict hConflict
      cases hConflict
  | some t' =>
    by_cases hSame : t' = t
    · simp only [if_pos hSame]
      exact .start _ s
    · simp only [if_neg hSame]
      refine ⟨fun _ _ => id, fun _ h => absurd rfl h, ?_⟩
      rintro _ ⟨⟩
      exact ⟨rfl, hType, hSame⟩

mutual
theorem staysWithin_unifyEnding (params : List String) :
    ∀ (s : Assignment) (pattern actual : TypeExpr), (unifyEnding params s pattern actual).StaysWithin
      (fun p => p ∈ params ∧ pattern.mentions p = true) s
  | s, .app n ps, actual => by
    rw [unifyEnding]
    split
    case isTrue hParam =>
      obtain ⟨hEmpty, hMem⟩ := Bool.and_eq_true_iff.mp hParam
      apply (staysWithin_assignEnding s n actual).mono
      rintro _ rfl
      exact ⟨List.contains_iff_mem.mp hMem, by simp [TypeExpr.mentions_app, hEmpty]⟩
    case isFalse =>
      split
      · apply (staysWithin_unifyArgsEnding params s ps actual.args).mono
        rintro p ⟨hMem, hMention⟩
        exact ⟨hMem, by rw [TypeExpr.mentions_app, hMention, Bool.or_true]⟩
      · exact .start _ s

theorem staysWithin_unifyArgsEnding (params : List String) :
    ∀ (s : Assignment) (patterns actuals : List TypeExpr), (unifyArgsEnding params s patterns actuals).StaysWithin
      (fun p => p ∈ params ∧ patterns.any (TypeExpr.mentions p) = true) s
  | s, t :: ts, a :: as => by
    have hHead : (unifyEnding params s t a).StaysWithin
        (fun p => p ∈ params ∧ (t :: ts).any (TypeExpr.mentions p) = true) s := by
      apply (staysWithin_unifyEnding params s t a).mono
      rintro p ⟨hMem, hMention⟩
      exact ⟨hMem, by rw [List.any_cons, hMention, Bool.true_or]⟩
    rw [unifyArgsEnding]
    -- The other arguments are matched with what the first match has assigned, unless it ended at a conflict.
    split
    case h_1 s' hEnd =>
      rw [hEnd] at hHead
      apply hHead.trans
      apply (staysWithin_unifyArgsEnding params s' ts as).mono
      rintro p ⟨hMem, hMention⟩
      exact ⟨hMem, by rw [List.any_cons, hMention, Bool.or_true]⟩
    case h_2 s' conflict hEnd =>
      rwa [hEnd] at hHead
  | s, [], _ => .start _ s
  | s, _ :: _, [] => .start _ s
end

open Constraint in
/-- Matched with what substitution makes of it, a type assigns what was put in to the parameters that it mentions. -/
theorem unify_subst (params : List String) (pattern : TypeExpr) (types : String → TypeExpr) :
    unify params .empty pattern (pattern.subst params types) =
      .ok fun p => if p ∈ params ∧ pattern.mentions p = true then some (types p) else none := by
  have hAgree : Agree (pattern.constraints params (pattern.subst params types)) :=
    agree_of_types types fun _ hk => (TypeExpr.mem_constraints_subst_iff.mp hk).2.2
  rw [unify_eq_absorb, absorb_of_agree hAgree]
  congr 1
  funext p
  split
  case isTrue hMention =>
    exact (typeOf?_eq_some_iff hAgree).mpr (TypeExpr.mem_constraints_subst_iff.mpr ⟨hMention.1, hMention.2, rfl⟩)
  case isFalse hMention =>
    rw [typeOf?_eq_none_iff]
    rintro k hk rfl
    obtain ⟨hMem, hOwn, -⟩ := TypeExpr.mem_constraints_subst_iff.mp hk
    exact hMention ⟨hMem, hOwn⟩

end Assignment

namespace Component
open Attribute Constraint

variable {c : Component} {attributes : List Attribute} {scope : Scope}

/-- Matches the type of the parameter that an attribute names, if that is examined, with the type of the value. -/
def inferStep (c : Component) (examined : Parameter → Bool) (scope : Scope) (s : Assignment) (a : Attribute) :
    Except Conflict Assignment :=
  match c.param? a.name.value with
  | none => .ok s
  | some param =>
    if examined param then
      match a.value.value.staticType? scope with
      | none => .ok s
      | some actual => s.unify c.typeParams param.type actual
    else .ok s

/-- Goes through the attributes one by one, up to the first conflict. -/
def inferWhere (c : Component) (examined : Parameter → Bool) (scope : Scope) :
    Assignment → List Attribute → Except Conflict Assignment
  | s, [] => .ok s
  | s, a :: rest =>
    match c.inferStep examined scope s a with
    | .ok s' => inferWhere c examined scope s' rest
    | .error conflict => .error conflict

section Examined

variable {examined : Parameter → Bool}
  (hExamined : ∀ param, c.typeParams.any param.type.mentions = true → examined param = true)
include hExamined

theorem inferStep_eq_absorb (s : Assignment) (a : Attribute) :
    c.inferStep examined scope s a = s.absorb (c.constraints [a] scope) := by
  rw [inferStep, constraints, List.flatMap_singleton]
  cases c.param? a.name.value with
  | none => rfl
  | some param =>
    cases a.value.value.staticType? scope with
    | none => exact ite_self _
    | some actual =>
      dsimp only
      split
      case isTrue => exact Assignment.unify_eq_absorb c.typeParams s param.type actual
      case isFalse hPassed =>
        have hNone : c.typeParams.any param.type.mentions = false :=
          Bool.eq_false_iff.mpr fun hMention => hPassed (hExamined param hMention)
        rw [TypeExpr.constraints_eq_nil hNone]
        rfl

/-- It makes no difference which parameters are examined beyond those whose types mention a type parameter. -/
theorem inferWhere_eq_absorb (s : Assignment) (attributes : List Attribute) :
    c.inferWhere examined scope s attributes = s.absorb (c.constraints attributes scope) := by
  induction attributes generalizing s with
  | nil => rfl
  | cons a rest ih =>
    have hCons : c.constraints (a :: rest) scope = c.constraints [a] scope ++ c.constraints rest scope := by
      simp [constraints]
    rw [inferWhere, inferStep_eq_absorb hExamined, hCons, Assignment.absorb_append]
    cases s.absorb (c.constraints [a] scope) with
    | ok s' => exact ih s'
    | error conflict => rfl

end Examined

/-- Inference passes over parameters whose types mention no type parameter, and finds the same as without this check,
be it a conflict. For a match, whatever is assigned before it, assigns types only to type parameters that the declared
type mentions and that have none yet, and reports only such as it mentions. It does find all of these where the type
of the value is what substitution makes of the declared type. -/
theorem infer_eq_without_check (c : Component) (attributes : List Attribute) (scope : Scope) :
    c.infer attributes scope =
      c.inferWhere (fun param => c.typeParams.any param.type.mentions) scope .empty attributes ∧
    c.infer attributes scope = c.inferWhere (fun _ => true) scope .empty attributes ∧
    (c.isGeneric = true → (∀ p ∈ c.typeParams, pinned? attributes p = none) →
      c.resolveArgs attributes scope = c.concluded (c.inferWhere (fun _ => true) scope .empty attributes)) ∧
    ∀ (params : List String) (pattern : TypeExpr),
      (∀ (s : Assignment) (actual : TypeExpr),
        Assignment.unify params s pattern actual = (Assignment.unifyEnding params s pattern actual).result ∧
        (Assignment.unifyEnding params s pattern actual).StaysWithin
          (fun p => p ∈ params ∧ pattern.mentions p = true) s) ∧
      ∀ types : String → TypeExpr, Assignment.unify params .empty pattern (pattern.subst params types) =
        .ok fun p => if p ∈ params ∧ pattern.mentions p = true then some (types p) else none := by
  have hChecked : c.infer attributes scope =
      c.inferWhere (fun param => c.typeParams.any param.type.mentions) scope .empty attributes := by
    rw [infer_eq_absorb, inferWhere_eq_absorb fun _ => id]
  have hAll : c.infer attributes scope = c.inferWhere (fun _ => true) scope .empty attributes := by
    rw [infer_eq_absorb, inferWhere_eq_absorb fun _ _ => rfl]
  refine ⟨hChecked, hAll, ?_, ?_⟩
  · intro hGeneric hUnpinned
    rw [resolveArgs_of_unpinned hGeneric hUnpinned, hAll]
  · intro params pattern
    refine ⟨?_, Assignment.unify_subst params pattern⟩
    intro s actual
    exact ⟨(Assignment.result_unifyEnding params s pattern actual).symm,
      Assignment.staysWithin_unifyEnding params s pattern actual⟩

end Component

def titledComponent : Component :=
  { lookupComponent with params := ⟨"title", .app "TKey" [.named "string"]⟩ :: lookupComponent.params }

/-- The type of the title has the name of a type parameter, but mentions none. -/
theorem infer_eq_without_check_titled :
    titledComponent.isGeneric = true ∧
    (∀ p ∈ titledComponent.typeParams,
      Attribute.pinned? (titleAttribute :: lookupAttributes (.binding "ratio")) p = none) ∧
    titledComponent.resolveArgs (titleAttribute :: lookupAttributes (.binding "ratio")) lookupScope =
      titledComponent.concluded (titledComponent.inferWhere (fun _ => true) lookupScope .empty
        (titleAttribute :: lookupAttributes (.binding "ratio"))) :=
  ⟨rfl, by decide, (titledComponent.infer_eq_without_check _ lookupScope).2.2.1 rfl (by decide)⟩

end TypedMarkup
