import TypedMarkup.Token.Basic

/-! # Spellings

A spelling says which rows of tokens write a value. Values in a row are written one behind another, with
or without a mark between them.
-/
namespace TypedMarkup.Spelling
set_option autoImplicit false

variable {α : Type} {S : α → List Token → Prop} {m : Mark} {a : α} {as : List α} {ts : List Token}

inductive Row (S : α → List Token → Prop) : List α → List Token → Prop
  | nil : Row S [] []
  | cons {a : α} {as : List α} {ts ts' : List Token} (head : S a ts) (rest : Row S as ts') :
      Row S (a :: as) (ts ++ ts')

/-- At least one value, with a mark between two of them. -/
inductive Separated (m : Mark) (S : α → List Token → Prop) : List α → List Token → Prop
  | last {a : α} {ts : List Token} (head : S a ts) : Separated m S [a] ts
  | cons {a : α} {as : List α} {ts ts' : List Token} (head : S a ts) (rest : Separated m S as ts') :
      Separated m S (a :: as) (ts ++ .mark m :: ts')

/-- A value that may be left out is then written by no token. -/
def Optional (S : α → List Token → Prop) : Option α → List Token → Prop
  | none, ts => ts = []
  | some a, ts => S a ts

theorem Row.exists_of_mem (h : Row S as ts) (ha : a ∈ as) : ∃ own, S a own ∧ own ⊆ ts := by
  induction h with
  | nil => cases ha
  | cons head rest ih =>
    rcases List.mem_cons.mp ha with rfl | ha
    · exact ⟨_, head, List.subset_append_left _ _⟩
    · obtain ⟨own, hOwn, hSub⟩ := ih ha
      exact ⟨own, hOwn, List.subset_append_of_subset_right _ hSub⟩

theorem Row.append {as' : List α} {ts' : List Token} (h : Row S as ts) (h' : Row S as' ts') :
    Row S (as ++ as') (ts ++ ts') := by
  induction h with
  | nil => exact h'
  | cons head rest ih =>
    rw [List.append_assoc]
    exact .cons head ih

theorem Row.singleton (h : S a ts) : Row S [a] ts := by
  rw [← List.append_nil ts]
  exact .cons h .nil

theorem Row.exists_append {as' : List α} (h : Row S (as ++ as') ts) :
    ∃ own own', Row S as own ∧ Row S as' own' ∧ ts = own ++ own' := by
  induction as generalizing ts with
  | nil => exact ⟨[], ts, .nil, h, rfl⟩
  | cons a as ih =>
    cases h with
    | cons head rest =>
      obtain ⟨own, own', hOwn, hOwn', rfl⟩ := ih rest
      exact ⟨_, own', .cons head hOwn, hOwn', (List.append_assoc _ _ _).symm⟩

theorem Row.of_singleton (h : Row S [a] ts) : S a ts := by
  cases h with
  | cons head rest =>
    cases rest
    rwa [List.append_nil]

theorem Separated.exists_of_mem (h : Separated m S as ts) (ha : a ∈ as) : ∃ own, S a own ∧ own ⊆ ts := by
  induction h with
  | last head =>
    obtain rfl := List.mem_singleton.mp ha
    exact ⟨_, head, List.Subset.refl _⟩
  | cons head rest ih =>
    rcases List.mem_cons.mp ha with rfl | ha
    · exact ⟨_, head, List.subset_append_left _ _⟩
    · obtain ⟨own, hOwn, hSub⟩ := ih ha
      exact ⟨own, hOwn, List.subset_append_of_subset_right _ (List.subset_cons_of_subset _ hSub)⟩

end TypedMarkup.Spelling
