import TypedMarkup.Proofs.Inference.Slots

/-! # What becomes of a site when more is known

Further bindings and further attributes can only add constraints on type parameters. What was found for a type
parameter is then found again, or a conflict comes up.
-/
namespace TypedMarkup
set_option autoImplicit false

namespace Constraint

variable {cs ds : List Constraint} {p : String} {t : TypeExpr}

theorem Agree.of_subset (hSubset : cs ⊆ ds) (h : Agree ds) : Agree cs :=
  fun k hk l hl => h k (hSubset hk) l (hSubset hl)

theorem typeOf?_of_subset (hSubset : cs ⊆ ds) (hAgree : Agree ds) (h : typeOf? cs p = some t) :
    typeOf? ds p = some t :=
  (typeOf?_eq_some_iff hAgree).mpr (hSubset (mem_of_typeOf?_eq_some h))

theorem typeOf?_eq_none_of_subset (hSubset : cs ⊆ ds) (h : typeOf? ds p = none) : typeOf? cs p = none :=
  typeOf?_eq_none_iff.mpr fun k hk => typeOf?_eq_none_iff.mp h k (hSubset hk)

end Constraint

def Outcome.IsConflict (o : Outcome) : Prop := ∃ conflict, o = .failed (.conflict conflict)

/-- Every binding of the first scope is one of the second. -/
def Scope.Extends (scope scope' : Scope) : Prop := ∀ name t, scope.get? name = some t → scope'.get? name = some t

theorem Scope.extends_append (scope : Scope) (more : List (String × TypeExpr)) :
    scope.Extends ⟨scope.bindings ++ more⟩ := by
  intro name t h
  rw [get?] at h ⊢
  rw [List.lookup_append, h]
  rfl

theorem AttributeValue.staticType?_of_extends {scope scope' : Scope} (hScope : scope.Extends scope')
    {v : AttributeValue} {t : TypeExpr} (h : v.staticType? scope = some t) : v.staticType? scope' = some t := by
  cases v with
  | binding name => exact hScope name t h
  | type path =>
    rw [staticType?] at h ⊢
    split at h
    case isTrue hSimple =>
      rw [if_pos hSimple]
      exact hScope path.name t h
    case isFalse => cases h
  | _ => exact h

namespace Component
open Attribute Constraint

variable {c : Component} {attributes attributes' : List Attribute} {scope scope' : Scope}

/-- The second attributes are the first and others put in anywhere, none of them named after a type parameter. -/
inductive Inserts (c : Component) : List Attribute → List Attribute → Prop
  | nil : Inserts c [] []
  | keep (a : Attribute) {as as' : List Attribute} (h : Inserts c as as') : Inserts c (a :: as) (a :: as')
  | insert {a : Attribute} (hName : a.name.value ∉ c.typeParams) {as as' : List Attribute} (h : Inserts c as as') :
      Inserts c as (a :: as')

theorem Inserts.refl (attributes : List Attribute) : c.Inserts attributes attributes := by
  induction attributes with
  | nil => exact .nil
  | cons a rest ih => exact .keep a ih

theorem Inserts.subset (h : c.Inserts attributes attributes') : attributes ⊆ attributes' := by
  induction h with
  | nil => exact List.Subset.refl _
  | keep a _ ih => exact List.cons_subset_cons a ih
  | insert _ _ ih => exact List.subset_cons_of_subset _ ih

theorem Inserts.pinned?_eq (h : c.Inserts attributes attributes') {p : String} (hp : p ∈ c.typeParams) :
    pinned? attributes' p = pinned? attributes p := by
  induction h with
  | nil => rfl
  | keep a _ ih => rw [pinned?, pinned?, ih]
  | @insert a hName as as' _ ih =>
    have hOther : a.name.value ≠ p := by
      rintro rfl
      exact hName hp
    rw [pinned?, if_neg hOther, ih]

theorem Relevant.of_extends (hScope : scope.Extends scope') {a : Attribute} {pattern actual : TypeExpr}
    (h : c.Relevant scope a pattern actual) : c.Relevant scope' a pattern actual where
  declared := h.declared
  mentions := h.mentions
  known := AttributeValue.staticType?_of_extends hScope h.known

theorem constraints_subset (hScope : scope.Extends scope') (hSubset : attributes ⊆ attributes') :
    c.constraints attributes scope ⊆ c.constraints attributes' scope' := by
  intro k hk
  obtain ⟨a, ha, pattern, actual, hRelevant, hMem⟩ := mem_constraints_iff.mp hk
  exact mem_constraints_iff.mpr ⟨a, hSubset ha, pattern, actual, hRelevant.of_extends hScope, hMem⟩

/-- Where some arguments are pinned, nothing else counts. -/
theorem resolveArgs_congr_of_pinned (hSame : ∀ p ∈ c.typeParams, pinned? attributes' p = pinned? attributes p)
    (hPinned : ∃ p ∈ c.typeParams, pinned? attributes p ≠ none) :
    c.resolveArgs attributes' scope' = c.resolveArgs attributes scope := by
  obtain ⟨q, hq, hOwn⟩ := id hPinned
  have hGeneric := isGeneric_of_mem hq
  have hMap : c.typeParams.map (pinned? attributes') = c.typeParams.map (pinned? attributes) :=
    List.map_congr_left hSame
  by_cases hAll : ∀ p ∈ c.typeParams, pinned? attributes p ≠ none
  · rw [resolveArgs_of_all_pinned hGeneric hAll, resolveArgs_of_all_pinned hGeneric, hMap]
    intro p hp
    rw [hSame p hp]
    exact hAll p hp
  · have hMissing : ∃ p ∈ c.typeParams, pinned? attributes p = none := by simpa using hAll
    obtain ⟨m, hm, hNone⟩ := id hMissing
    have hFilter : (c.typeParams.filter fun p => pinned? attributes' p = none) =
        c.typeParams.filter fun p => pinned? attributes p = none := by
      apply List.filter_congr
      intro p hp
      rw [hSame p hp]
    rw [resolveArgs_of_some_pinned hGeneric hPinned hMissing, resolveArgs_of_some_pinned hGeneric, hMap, hFilter]
    · exact ⟨q, hq, by rwa [hSame q hq]⟩
    · exact ⟨m, hm, by rwa [hSame m hm]⟩

/-- With the same type arguments given, what is inferred counts only if none is given at all. -/
theorem resolveArgs_congr_or_unpinned
    (hSame : ∀ p ∈ c.typeParams, pinned? attributes' p = pinned? attributes p) (scope scope' : Scope) :
    c.resolveArgs attributes' scope' = c.resolveArgs attributes scope ∨
      c.isGeneric = true ∧ (∀ p ∈ c.typeParams, pinned? attributes p = none) ∧
        ∀ p ∈ c.typeParams, pinned? attributes' p = none := by
  cases hGeneric : c.isGeneric with
  | false =>
    left
    rw [resolveArgs_of_not_generic hGeneric, resolveArgs_of_not_generic hGeneric]
  | true =>
    by_cases hUnpinned : ∀ p ∈ c.typeParams, pinned? attributes p = none
    · right
      refine ⟨rfl, hUnpinned, ?_⟩
      intro p hp
      rw [hSame p hp, hUnpinned p hp]
    · left
      exact resolveArgs_congr_of_pinned hSame (by simpa using hUnpinned)

theorem outcome_of_not_agree (hGeneric : c.isGeneric = true)
    (hUnpinned : ∀ p ∈ c.typeParams, pinned? attributes p = none) (h : ¬ Agree (c.constraints attributes scope)) :
    (c.resolveArgs attributes scope).1 = c.typeParams.map (fun _ => none) ∧
      (c.resolveArgs attributes scope).2.IsConflict := by
  obtain ⟨conflict, hConflict⟩ := (agree_or_conflict (c.constraints attributes scope)).resolve_left h
  rw [resolveArgs_of_conflict hGeneric hUnpinned hConflict]
  exact ⟨rfl, conflict, rfl⟩

end Component

/-- How a site may change when more is known about it. -/
structure Resolution.Grows (r r' : Resolution) : Prop where
  settled : (r.outcome = .notGeneric ∨ r.outcome = .explicit ∨ ∃ names, r.outcome = .failed (.missing names)) → r' = r
  conflict : r.outcome.IsConflict → r'.outcome.IsConflict
  inferred : r.outcome = .inferred → r'.outcome.IsConflict ∨ r' = r
  underspecified (names : List String) : r.outcome = .failed (.underspecified names) →
    r'.outcome.IsConflict ∨ r'.outcome = .inferred ∨
      ∃ names', r'.outcome = .failed (.underspecified names') ∧ names'.Sublist names
  keeps : r'.outcome.IsConflict ∨ ∀ (i : Nat) (t : TypeExpr), r.args[i]? = some (some t) → r'.args[i]? = some (some t)

namespace Resolution.Grows

theorem refl (r : Resolution) : r.Grows r where
  settled _ := rfl
  conflict := id
  inferred _ := .inr rfl
  underspecified names h := .inr (.inr ⟨names, h, List.Sublist.refl _⟩)
  keeps := .inr fun _ _ => id

/-- If nothing is pinned, the new site may be in conflict. -/
theorem of_isConflict {r r' : Resolution} (h : r'.outcome.IsConflict)
    (hOpen : r.outcome.IsConflict ∨ r.outcome = .inferred ∨ ∃ names, r.outcome = .failed (.underspecified names)) :
    r.Grows r' where
  settled hSettled := by
    rcases hOpen with ⟨conflict, hOpen⟩ | hOpen | ⟨names, hOpen⟩ <;> simp [hOpen] at hSettled
  conflict _ := h
  inferred _ := .inl h
  underspecified _ _ := .inl h
  keeps := .inl h

end Resolution.Grows

namespace Component
open Attribute Constraint

variable {c : Component} {attributes attributes' : List Attribute} {scope scope' : Scope}

theorem outcome_of_unpinned (hGeneric : c.isGeneric = true)
    (hUnpinned : ∀ p ∈ c.typeParams, pinned? attributes p = none) :
    (c.resolveArgs attributes scope).2.IsConflict ∨ (c.resolveArgs attributes scope).2 = .inferred ∨
      ∃ names, (c.resolveArgs attributes scope).2 = .failed (.underspecified names) := by
  by_cases hAgree : Agree (c.constraints attributes scope)
  · rw [resolveArgs_of_agree hGeneric hUnpinned hAgree]
    dsimp only
    split
    · exact .inr (.inl rfl)
    · exact .inr (.inr ⟨_, rfl⟩)
  · exact .inl (outcome_of_not_agree hGeneric hUnpinned hAgree).2

theorem grows_of_agree (span : Span) (hGeneric : c.isGeneric = true)
    (hUnpinned : ∀ p ∈ c.typeParams, pinned? attributes p = none)
    (hUnpinned' : ∀ p ∈ c.typeParams, pinned? attributes' p = none)
    (hSubset : c.constraints attributes scope ⊆ c.constraints attributes' scope')
    (hAgree : Agree (c.constraints attributes' scope')) :
    (c.resolve attributes span scope).Grows (c.resolve attributes' span scope') := by
  have hKeeps : ∀ p t, typeOf? (c.constraints attributes scope) p = some t →
      typeOf? (c.constraints attributes' scope') p = some t := fun p t => typeOf?_of_subset hSubset hAgree
  have hEmpty : ∀ p, typeOf? (c.constraints attributes' scope') p = none →
      typeOf? (c.constraints attributes scope) p = none := fun p => typeOf?_eq_none_of_subset hSubset
  rw [resolve, resolve, resolveArgs_of_agree hGeneric hUnpinned (hAgree.of_subset hSubset),
    resolveArgs_of_agree hGeneric hUnpinned' hAgree]
  generalize typeOf? (c.constraints attributes scope) = found at hKeeps hEmpty
  generalize typeOf? (c.constraints attributes' scope') = found' at hKeeps hEmpty
  by_cases hAll : ∀ p ∈ c.typeParams, found p ≠ none
  · have hSame : ∀ p ∈ c.typeParams, found' p = found p := by
      intro p hp
      obtain ⟨t, ht⟩ := Option.ne_none_iff_exists'.mp (hAll p hp)
      rw [ht, hKeeps p t ht]
    have hAll' : ∀ p ∈ c.typeParams, found' p ≠ none := by
      intro p hp
      rw [hSame p hp]
      exact hAll p hp
    rw [if_pos hAll, if_pos hAll', List.map_congr_left hSame]
    exact .refl _
  · rw [if_neg hAll]
    refine ⟨by simp, by simp [Outcome.IsConflict], by simp, ?_, ?_⟩
    · rintro names ⟨⟩
      right
      by_cases hAll' : ∀ p ∈ c.typeParams, found' p ≠ none
      · rw [if_pos hAll']
        exact .inl rfl
      · rw [if_neg hAll']
        refine .inr ⟨_, rfl, List.monotone_filter_right _ ?_⟩
        intro p hNone
        exact decide_eq_true (hEmpty p (of_decide_eq_true hNone))
    · right
      intro i t hSlot
      rw [List.getElem?_map, Option.map_eq_some_iff] at hSlot ⊢
      obtain ⟨p, hp, hFound⟩ := hSlot
      exact ⟨p, hp, hKeeps p t hFound⟩

/-- With further bindings in scope and further attributes, but no further type arguments, a site that has given type
arguments stays as it is and a conflict stays a conflict. Types that were found stay, unless a conflict comes up. -/
theorem resolve_grows (c : Component) (span : Span) (hScope : scope.Extends scope')
    (hInserts : c.Inserts attributes attributes') :
    (c.resolve attributes span scope).Grows (c.resolve attributes' span scope') := by
  have hSame : ∀ p ∈ c.typeParams, pinned? attributes' p = pinned? attributes p := by
    intro p hp
    exact hInserts.pinned?_eq hp
  have hSubset := c.constraints_subset hScope hInserts.subset
  rcases resolveArgs_congr_or_unpinned hSame scope scope' with hArgs | ⟨hGeneric, hUnpinned, hUnpinned'⟩
  · rw [resolve, resolve, hArgs]
    exact .refl _
  · by_cases hAgree : Agree (c.constraints attributes' scope')
    · exact grows_of_agree span hGeneric hUnpinned hUnpinned' hSubset hAgree
    · exact .of_isConflict (outcome_of_not_agree hGeneric hUnpinned' hAgree).2
        (outcome_of_unpinned hGeneric hUnpinned)

end Component

def ratioScope : Scope := ⟨[("ratio", .named "double")]⟩

def indexBinding : String × TypeExpr := ("index", .app "Dictionary" [.named "string", .app "List" [.named "double"]])

def titleAttribute : Attribute := ⟨⟨"title", ⟨40, 45⟩⟩, ⟨.text "Ratios", ⟨46, 54⟩⟩, ⟨40, 54⟩⟩

/-- The type of the entries comes to be known, and with it the key. -/
theorem resolve_grows_index :
    ratioScope.Extends ⟨ratioScope.bindings ++ [indexBinding]⟩ ∧
    lookupComponent.Inserts (lookupAttributes (.binding "ratio"))
      (titleAttribute :: lookupAttributes (.binding "ratio")) ∧
    (lookupComponent.resolve (lookupAttributes (.binding "ratio")) ⟨0, 36⟩ ratioScope).outcome =
      .failed (.underspecified ["TKey"]) ∧
    (lookupComponent.resolve (lookupAttributes (.binding "ratio")) ⟨0, 36⟩ ratioScope).Grows
      (lookupComponent.resolve (titleAttribute :: lookupAttributes (.binding "ratio")) ⟨0, 36⟩
        ⟨ratioScope.bindings ++ [indexBinding]⟩) := by
  have hScope := ratioScope.extends_append [indexBinding]
  have hInserts : lookupComponent.Inserts (lookupAttributes (.binding "ratio"))
      (titleAttribute :: lookupAttributes (.binding "ratio")) := .insert (by decide) (.refl _)
  exact ⟨hScope, hInserts, by decide, lookupComponent.resolve_grows ⟨0, 36⟩ hScope hInserts⟩

end TypedMarkup
