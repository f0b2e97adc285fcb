import TypedMarkup.Component.Resolution

/-! # Constraints on type parameters

What matching says about type parameters is a list of constraints. Taken in order they end in an
assignment if all of them agree, and otherwise in a conflict about the earliest that does not.
-/
namespace TypedMarkup
set_option autoImplicit false

/-- A type parameter with a type that it has to be. -/
structure Constraint where
  param : String
  type : TypeExpr
deriving DecidableEq

namespace TypeExpr

mutual
/-- The constraints from walking a declared type alongside the type of a value. -/
def constraints (params : List String) : TypeExpr → TypeExpr → List Constraint
  | app p ps, actual =>
    if ps.isEmpty && params.contains p then [⟨p, actual⟩]
    else if p = actual.name ∧ ps.length = actual.args.length then constraintsOfArgs params ps actual.args
    else []

def constraintsOfArgs (params : List String) : List TypeExpr → List TypeExpr → List Constraint
  | p :: ps, a :: as => constraints params p a ++ constraintsOfArgs params ps as
  | _, _ => []
end

mutual
theorem mentions_of_mem_constraints {params : List String} {c : Constraint} :
    ∀ {pattern actual : TypeExpr}, c ∈ pattern.constraints params actual →
      c.param ∈ params ∧ pattern.mentions c.param = true
  | app p ps, actual, h => by
    rw [constraints] at h
    rw [mentions_app]
    split at h
    case isTrue hParam =>
      obtain rfl := List.mem_singleton.mp h
      simp_all
    case isFalse =>
      split at h
      · obtain ⟨hParam, t, ht, hMention⟩ := mentions_of_mem_constraintsOfArgs h
        exact ⟨hParam, by simpa using .inr ⟨t, ht, hMention⟩⟩
      · cases h

theorem mentions_of_mem_constraintsOfArgs {params : List String} {c : Constraint} :
    ∀ {patterns actuals : List TypeExpr}, c ∈ constraintsOfArgs params patterns actuals →
      c.param ∈ params ∧ ∃ t ∈ patterns, t.mentions c.param = true
  | p :: ps, a :: as, h => by
    rw [constraintsOfArgs] at h
    rcases List.mem_append.mp h with h | h
    · obtain ⟨hParam, hMention⟩ := mentions_of_mem_constraints h
      exact ⟨hParam, p, List.mem_cons_self, hMention⟩
    · obtain ⟨hParam, t, ht, hMention⟩ := mentions_of_mem_constraintsOfArgs h
      exact ⟨hParam, t, List.mem_cons_of_mem _ ht, hMention⟩
  | [], _, h => by simp [constraintsOfArgs] at h
  | _ :: _, [], h => by simp [constraintsOfArgs] at h
end

theorem constraints_eq_nil {params : List String} {pattern : TypeExpr}
    (h : params.any pattern.mentions = false) (actual : TypeExpr) :
    pattern.constraints params actual = [] := by
  rw [List.eq_nil_iff_forall_not_mem]
  intro c hc
  obtain ⟨hParam, hMention⟩ := mentions_of_mem_constraints hc
  exact (List.any_eq_false.mp h c.param hParam) hMention

end TypeExpr

namespace Constraint

/-- No type parameter has to be two different types. -/
def Agree (cs : List Constraint) : Prop :=
  ∀ c ∈ cs, ∀ d ∈ cs, c.param = d.param → c.type = d.type

/-- The type that the first constraint on a type parameter asks for. -/
def typeOf? (cs : List Constraint) : Assignment := fun param =>
  (cs.find? fun c => c.param = param).map Constraint.type

theorem typeOf?_eq_none_iff {cs : List Constraint} {param : String} :
    typeOf? cs param = none ↔ ∀ c ∈ cs, c.param ≠ param := by
  simp [typeOf?]

theorem mem_of_typeOf?_eq_some {cs : List Constraint} {param : String} {t : TypeExpr}
    (h : typeOf? cs param = some t) : ⟨param, t⟩ ∈ cs := by
  obtain ⟨c, hFind, rfl⟩ := Option.map_eq_some_iff.mp h
  have hParam : c.param = param := by simpa using List.find?_some hFind
  rw [← hParam]
  exact List.mem_of_find?_eq_some hFind

theorem typeOf?_eq_some_iff {cs : List Constraint} (hAgree : Agree cs) {param : String} {t : TypeExpr} :
    typeOf? cs param = some t ↔ ⟨param, t⟩ ∈ cs := by
  constructor
  · exact mem_of_typeOf?_eq_some
  · intro h
    cases hType : typeOf? cs param with
    | none => exact absurd rfl (typeOf?_eq_none_iff.mp hType _ h)
    | some t' =>
      have hSame : t' = t := hAgree _ (mem_of_typeOf?_eq_some hType) _ h rfl
      rw [hSame]

theorem typeOf?_concat_of_new {cs : List Constraint} {c : Constraint} (h : typeOf? cs c.param = none) :
    typeOf? (cs ++ [c]) = fun x => if x = c.param then some c.type else typeOf? cs x := by
  funext x
  have hNone : cs.find? (fun d => d.param = c.param) = none := by simpa [typeOf?] using h
  by_cases hx : x = c.param
  · rw [if_pos hx, hx, typeOf?, List.find?_append, hNone]
    simp
  · rw [if_neg hx, typeOf?, List.find?_append]
    simp [typeOf?, Ne.symm hx]

theorem typeOf?_concat_of_known {cs : List Constraint} {c : Constraint} {t : TypeExpr}
    (h : typeOf? cs c.param = some t) : typeOf? (cs ++ [c]) = typeOf? cs := by
  funext x
  obtain ⟨d, hFind, -⟩ := Option.map_eq_some_iff.mp h
  by_cases hx : x = c.param
  · rw [hx, typeOf?, typeOf?, List.find?_append, hFind]
    rfl
  · rw [typeOf?, typeOf?, List.find?_append]
    simp [Ne.symm hx]

theorem Agree.concat {cs : List Constraint} (h : Agree cs) {c : Constraint}
    (hNew : ∀ d ∈ cs, d.param = c.param → d.type = c.type) : Agree (cs ++ [c]) := by
  intro d hd e he hParam
  rcases List.mem_append.mp hd with hd | hd <;> rcases List.mem_append.mp he with he | he
  · exact h d hd e he hParam
  · rw [List.mem_singleton.mp he] at hParam ⊢
    exact hNew d hd hParam
  · rw [List.mem_singleton.mp hd] at hParam ⊢
    exact (hNew e he hParam.symm).symm
  · rw [List.mem_singleton.mp hd, List.mem_singleton.mp he]

theorem agree_of_types {cs : List Constraint} (types : String → TypeExpr) (h : ∀ c ∈ cs, c.type = types c.param) :
    Agree cs := by
  intro c hc d hd hParam
  rw [h c hc, h d hd, hParam]

theorem Agree.of_append_left {cs ds : List Constraint} (h : Agree (cs ++ ds)) : Agree cs :=
  fun c hc d hd => h c (List.mem_append_left _ hc) d (List.mem_append_left _ hd)

end Constraint

/-- The conflict is between the earliest constraint that disagrees with one before it, and the
constraints on the same type parameter before it. -/
def Conflict.IsEarliestIn (conflict : Conflict) (cs : List Constraint) : Prop :=
  ∃ before after, cs = before ++ ⟨conflict.param, conflict.second⟩ :: after ∧ Constraint.Agree before ∧
    ⟨conflict.param, conflict.first⟩ ∈ before ∧ conflict.first ≠ conflict.second

namespace Constraint

theorem agree_or_conflict_append (cs : List Constraint) :
    ∀ seen, Agree seen → Agree (seen ++ cs) ∨ ∃ conflict : Conflict, conflict.IsEarliestIn (seen ++ cs) := by
  -- What was seen so far grows by one constraint at each step and agrees throughout.
  induction cs with
  | nil =>
    intro seen hSeen
    left
    rwa [List.append_nil]
  | cons c rest ih =>
    intro seen hSeen
    by_cases hNew : ∀ d ∈ seen, d.param = c.param → d.type = c.type
    · have h := ih (seen ++ [c]) (hSeen.concat hNew)
      rwa [List.append_assoc] at h
    · right
      simp only [Classical.not_forall] at hNew
      obtain ⟨d, hd, hParam, hType⟩ := hNew
      refine ⟨⟨c.param, d.type, c.type⟩, seen, rest, rfl, hSeen, ?_, hType⟩
      rwa [← hParam]

theorem agree_or_conflict (cs : List Constraint) : Agree cs ∨ ∃ conflict : Conflict, conflict.IsEarliestIn cs :=
  agree_or_conflict_append cs [] nofun

end Constraint

namespace Assignment
open Constraint

/-- Takes constraints in order, up to the first that contradicts what is assigned. -/
def absorb : Assignment → List Constraint → Except Conflict Assignment
  | s, [] => .ok s
  | s, c :: rest =>
    match s.assign c.param c.type with
    | .ok s' => absorb s' rest
    | .error conflict => .error conflict

theorem absorb_append (s : Assignment) (cs ds : List Constraint) :
    s.absorb (cs ++ ds) =
      match s.absorb cs with
      | .ok s' => s'.absorb ds
      | .error conflict => .error conflict := by
  induction cs generalizing s with
  | nil => rfl
  | cons c rest ih =>
    rw [List.cons_append, absorb, absorb]
    cases s.assign c.param c.type with
    | ok s' => exact ih s'
    | error conflict => rfl

theorem assign_typeOf? {seen : List Constraint} {c : Constraint} (h : Agree (seen ++ [c])) :
    assign (typeOf? seen) c.param c.type = .ok (typeOf? (seen ++ [c])) := by
  rw [assign]
  cases hType : typeOf? seen c.param with
  | none => rw [typeOf?_concat_of_new hType]
  | some t =>
    have hSame : t = c.type :=
      h _ (List.mem_append_left _ (mem_of_typeOf?_eq_some hType)) c (by simp) rfl
    rw [typeOf?_concat_of_known hType]
    exact if_pos hSame

theorem absorb_typeOf? {cs : List Constraint} :
    ∀ {seen : List Constraint}, Agree (seen ++ cs) → absorb (typeOf? seen) cs = .ok (typeOf? (seen ++ cs)) := by
  induction cs with
  | nil =>
    intro seen _
    rw [absorb, List.append_nil]
  | cons c rest ih =>
    intro seen h
    rw [List.append_cons] at h ⊢
    rw [absorb, assign_typeOf? h.of_append_left]
    exact ih h

theorem absorb_of_agree {cs : List Constraint} (h : Agree cs) : absorb .empty cs = .ok (typeOf? cs) :=
  @absorb_typeOf? cs [] h

theorem absorb_of_isEarliestIn {cs : List Constraint} {conflict : Conflict} (h : conflict.IsEarliestIn cs) :
    absorb .empty cs = .error conflict := by
  obtain ⟨before, after, rfl, hAgree, hMem, hNe⟩ := h
  rw [absorb_append, absorb_of_agree hAgree]
  change absorb (typeOf? before) _ = _
  rw [absorb, assign, (typeOf?_eq_some_iff hAgree).mpr hMem]
  simp only [if_neg hNe]

mutual
theorem unify_eq_absorb (params : List String) :
    ∀ (s : Assignment) (pattern actual : TypeExpr),
      unify params s pattern actual = s.absorb (pattern.constraints params actual)
  | s, .app p ps, actual => by
    rw [unify, TypeExpr.constraints]
    split
    · rw [absorb]
      cases s.assign p actual <;> rfl
    · split
      · exact unifyArgs_eq_absorb params s ps actual.args
      · rfl

theorem unifyArgs_eq_absorb (params : List String) :
    ∀ (s : Assignment) (patterns actuals : List TypeExpr),
      unifyArgs params s patterns actuals = s.absorb (TypeExpr.constraintsOfArgs params patterns actuals)
  | s, p :: ps, a :: as => by
    rw [unifyArgs, TypeExpr.constraintsOfArgs, absorb_append, unify_eq_absorb params s p a]
    cases s.absorb (p.constraints params a) with
    | ok s' => exact unifyArgs_eq_absorb params s' ps as
    | error conflict => rfl
  | s, [], _ => rfl
  | s, _ :: _, [] => rfl
end

end Assignment
end TypedMarkup
