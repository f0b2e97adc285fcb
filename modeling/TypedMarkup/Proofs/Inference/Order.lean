import Mathlib.Data.List.Nodup
import TypedMarkup.Proofs.Inference.Growth

/-! # Attributes in another order

Where no name is given twice, the order of the attributes plays no part in what is found for the type parameters.
It only decides which conflict is the one reported.
-/
namespace TypedMarkup
set_option autoImplicit false

section Keys

variable {α κ : Type} [DecidableEq κ] {key : α → κ} {l l' : List α}

theorem find?_key_eq_some_iff (h : (l.map key).Nodup) {k : κ} {a : α} :
    (l.find? fun x => key x = k) = some a ↔ a ∈ l ∧ key a = k := by
  constructor
  · intro hFind
    exact ⟨List.mem_of_find?_eq_some hFind, by simpa using List.find?_some hFind⟩
  · rintro ⟨ha, rfl⟩
    cases hFind : l.find? fun x => key x = key a with
    | none => exact absurd (decide_eq_true rfl) (List.find?_eq_none.mp hFind a ha)
    | some b =>
      have hKey : key b = key a := by simpa using List.find?_some hFind
      rw [List.inj_on_of_nodup_map h (List.mem_of_find?_eq_some hFind) ha hKey]

/-- Where no key is repeated the order plays no part in a search. -/
theorem find?_key_of_perm (hPerm : l.Perm l') (h : (l.map key).Nodup) (k : κ) :
    (l.find? fun x => key x = k) = l'.find? fun x => key x = k := by
  have h' : (l'.map key).Nodup := (hPerm.map key).nodup_iff.mp h
  apply Option.ext
  intro a
  rw [find?_key_eq_some_iff h, find?_key_eq_some_iff h', hPerm.mem_iff]

end Keys

theorem Constraint.typeOf?_eq_of_mem_iff {cs ds : List Constraint} (hSame : ∀ k, k ∈ cs ↔ k ∈ ds) (hAgree : Agree cs) :
    typeOf? ds = typeOf? cs := by
  have hAgree' : Agree ds := hAgree.of_subset fun k hk => (hSame k).mpr hk
  funext p
  apply Option.ext
  intro t
  rw [typeOf?_eq_some_iff hAgree, typeOf?_eq_some_iff hAgree', hSame]

theorem Attribute.pinned?_of_perm {attributes attributes' : List Attribute} (hPerm : attributes.Perm attributes')
    (hDistinct : (attributes.map fun a => a.name.value).Nodup) (p : String) :
    pinned? attributes' p = pinned? attributes p := by
  rw [← find?_bind_namedType?, ← find?_bind_namedType?, find?, find?, find?_key_of_perm hPerm hDistinct]

namespace Component
open Attribute Constraint

/-- In another order the same attributes, of which no two have one name, give the same arguments and the same
outcome, but that one conflict may be reported in place of another. -/
theorem resolve_of_perm (c : Component) {attributes attributes' : List Attribute} (span : Span) (scope : Scope)
    (hDistinct : (attributes.map fun a => a.name.value).Nodup) (hPerm : attributes.Perm attributes') :
    (c.resolve attributes' span scope).args = (c.resolve attributes span scope).args ∧
      ((c.resolve attributes' span scope).outcome = (c.resolve attributes span scope).outcome ∨
        (c.resolve attributes span scope).outcome.IsConflict ∧
          (c.resolve attributes' span scope).outcome.IsConflict) := by
  have hPinned : ∀ p ∈ c.typeParams, pinned? attributes' p = pinned? attributes p := by
    intro p _
    exact pinned?_of_perm hPerm hDistinct p
  have hSame : ∀ k, k ∈ c.constraints attributes scope ↔ k ∈ c.constraints attributes' scope := by
    intro k
    simp only [mem_constraints_iff, hPerm.mem_iff]
  change (c.resolveArgs attributes' scope).1 = (c.resolveArgs attributes scope).1 ∧
    ((c.resolveArgs attributes' scope).2 = (c.resolveArgs attributes scope).2 ∨
      (c.resolveArgs attributes scope).2.IsConflict ∧ (c.resolveArgs attributes' scope).2.IsConflict)
  rcases resolveArgs_congr_or_unpinned hPinned scope scope with hArgs | ⟨hGeneric, hUnpinned, hUnpinned'⟩
  · rw [hArgs]
    exact ⟨rfl, .inl rfl⟩
  by_cases hAgree : Agree (c.constraints attributes scope)
  · have hAgree' : Agree (c.constraints attributes' scope) := hAgree.of_subset fun k hk => (hSame k).mpr hk
    rw [resolveArgs_of_agree hGeneric hUnpinned hAgree, resolveArgs_of_agree hGeneric hUnpinned' hAgree',
      typeOf?_eq_of_mem_iff hSame hAgree]
    exact ⟨rfl, .inl rfl⟩
  · have hAgree' : ¬ Agree (c.constraints attributes' scope) :=
      fun h => hAgree (h.of_subset fun k hk => (hSame k).mp hk)
    obtain ⟨hArgs, hConflict⟩ := outcome_of_not_agree hGeneric hUnpinned hAgree
    obtain ⟨hArgs', hConflict'⟩ := outcome_of_not_agree hGeneric hUnpinned' hAgree'
    exact ⟨hArgs'.trans hArgs.symm, .inr ⟨hConflict, hConflict'⟩⟩

end Component

theorem resolve_of_perm_lookup :
    ((lookupAttributes (.integer 3)).map fun a => a.name.value).Nodup ∧
    (lookupAttributes (.integer 3)).Perm (lookupAttributes (.integer 3)).reverse ∧
    (lookupComponent.resolve (lookupAttributes (.integer 3)).reverse ⟨0, 36⟩ lookupScope).args =
      (lookupComponent.resolve (lookupAttributes (.integer 3)) ⟨0, 36⟩ lookupScope).args := by
  have hDistinct : ((lookupAttributes (.integer 3)).map fun a => a.name.value).Nodup := by decide
  have hPerm : (lookupAttributes (.integer 3)).Perm (lookupAttributes (.integer 3)).reverse :=
    (List.reverse_perm _).symm
  exact ⟨hDistinct, hPerm, (lookupComponent.resolve_of_perm ⟨0, 36⟩ lookupScope hDistinct hPerm).1⟩

/-- The conflict reported is another one when the attributes are exchanged. -/
example : (lookupComponent.resolve (lookupAttributes (.integer 3)).reverse ⟨0, 36⟩ lookupScope).outcome =
    .failed (.conflict ⟨"TValue", .named "int", .named "double"⟩) := by decide

end TypedMarkup
