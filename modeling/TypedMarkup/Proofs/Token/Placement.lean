import TypedMarkup.Proofs.Reader.Ensures
import TypedMarkup.Proofs.Token.Spelling

/-! # Values placed on tokens

A value placed on tokens is written by them, and its spans are theirs. Here are rows of placed values, with
or without a mark between them; what a row of spellings writes stands in such a row. Tokens move to other
places by a map of their offsets.
-/
namespace TypedMarkup
set_option autoImplicit false
open Spelling

def Span.moved (f : Nat → Nat) (s : Span) : Span := ⟨f s.start, f s.stop⟩

def Located.moved {α : Type} (f : Nat → Nat) (a : Located α) : Located α := ⟨a.value, a.span.moved f⟩

theorem Located.map_value_map_moved {α : Type} (f : Nat → Nat) (ts : List (Located α)) :
    (ts.map (moved f)).map value = ts.map value := by
  rw [List.map_map]
  rfl

theorem map_value_eq_cons_iff {ts : List (Located Token)} {t : Token} {values : List Token} :
    ts.map Located.value = t :: values ↔ ∃ s rest, ts = ⟨t, s⟩ :: rest ∧ rest.map Located.value = values := by
  rw [List.map_eq_cons_iff]
  constructor
  · rintro ⟨⟨_, s⟩, rest, rfl, rfl, h⟩
    exact ⟨s, rest, rfl, h⟩
  · rintro ⟨s, rest, rfl, h⟩
    exact ⟨_, rest, rfl, rfl, h⟩

theorem map_value_eq_singleton_iff {ts : List (Located Token)} {t : Token} :
    ts.map Located.value = [t] ↔ ∃ s, ts = [⟨t, s⟩] := by
  rw [map_value_eq_cons_iff]
  simp [List.map_eq_nil_iff]

theorem Span.ofTokens_moved (f : Nat → Nat) {ts : List (Located Token)} (h : ts ≠ []) :
    ofTokens (ts.map (Located.moved f)) = (ofTokens ts).moved f := by
  obtain ⟨t, rest, rfl⟩ := List.exists_cons_of_ne_nil h
  rw [ofTokens, ofTokens, Span.moved, List.getLast?_map, List.getLast?_cons]
  rfl

namespace Placement

variable {α β : Type} {P Q : α → List (Located Token) → Prop} {S : α → List Token → Prop} {m : Mark}
  {a : α} {as as' : List α} {ts ts' : List (Located Token)}

/-- Values placed one behind another. -/
def InRow (P : α → List (Located Token) → Prop) : List α → List (Located Token) → Prop
  | [], ts => ts = []
  | a :: as, ts => ∃ own after, P a own ∧ InRow P as after ∧ ts = own ++ after

/-- At least one value, with a mark between two of them. -/
def InSeries (m : Mark) (P : α → List (Located Token) → Prop) : List α → List (Located Token) → Prop
  | [], _ => False
  | [a], ts => P a ts
  | a :: b :: as, ts => ∃ own s after, P a own ∧ InSeries m P (b :: as) after ∧ ts = own ++ ⟨.mark m, s⟩ :: after

namespace InRow

theorem append (h : InRow P as ts) (h' : InRow P as' ts') : InRow P (as ++ as') (ts ++ ts') := by
  induction as generalizing ts with
  | nil =>
    obtain rfl : ts = [] := h
    exact h'
  | cons a as ih =>
    obtain ⟨own, after, hHead, hRest, rfl⟩ := h
    exact ⟨own, after ++ ts', hHead, ih hRest, List.append_assoc own after ts'⟩

theorem exists_append (h : InRow P (as ++ as') ts) :
    ∃ own after, InRow P as own ∧ InRow P as' after ∧ ts = own ++ after := by
  induction as generalizing ts with
  | nil => exact ⟨[], ts, rfl, h, rfl⟩
  | cons a as ih =>
    obtain ⟨head, _, hHead, hRest, rfl⟩ := h
    obtain ⟨own, after, hOwn, hAfter, rfl⟩ := ih hRest
    exact ⟨head ++ own, after, ⟨head, own, hHead, hOwn, rfl⟩, hAfter, (List.append_assoc head own after).symm⟩

theorem exists_of_mem (h : InRow P as ts) (ha : a ∈ as) : ∃ own, P a own ∧ own <:+: ts := by
  obtain ⟨before, after, rfl⟩ := List.append_of_mem ha
  obtain ⟨tsBefore, _, -, ⟨own, tsAfter, hOwn, -, rfl⟩, rfl⟩ := h.exists_append
  exact ⟨own, hOwn, tsBefore, tsAfter, List.append_assoc tsBefore own tsAfter⟩

theorem map {g : α → β} {k : Located Token → Located Token} {R : β → List (Located Token) → Prop}
    (h : InRow P as ts) (hg : ∀ a ∈ as, ∀ own, P a own → R (g a) (own.map k)) : InRow R (as.map g) (ts.map k) := by
  induction as generalizing ts with
  | nil =>
    obtain rfl : ts = [] := h
    rfl
  | cons a as ih =>
    obtain ⟨own, after, hHead, hRest, rfl⟩ := h
    refine ⟨own.map k, after.map k, hg a List.mem_cons_self own hHead, ?_, List.map_append⟩
    exact ih hRest fun b hb => hg b (List.mem_cons_of_mem _ hb)

/-- If each value can be exchanged for another with the same image, so can a row of them. -/
theorem exchange {g : α → β} (h : InRow P as ts)
    (hQ : ∀ a ∈ as, ∀ own, P a own → ∃ a', Q a' own ∧ g a' = g a) :
    ∃ as', InRow Q as' ts ∧ as'.map g = as.map g := by
  induction as generalizing ts with
  | nil => exact ⟨[], h, rfl⟩
  | cons a as ih =>
    obtain ⟨own, after, hHead, hRest, rfl⟩ := h
    obtain ⟨a', hOwn, hSame⟩ := hQ a List.mem_cons_self own hHead
    obtain ⟨as', hRow, hSames⟩ := ih hRest fun b hb => hQ b (List.mem_cons_of_mem _ hb)
    refine ⟨a' :: as', ⟨own, after, hOwn, hRow, rfl⟩, ?_⟩
    rw [List.map_cons, List.map_cons, hSame, hSames]

theorem of_row (h : Row S as (ts.map Located.value)) : InRow (fun a own => S a (own.map Located.value)) as ts := by
  generalize hValues : ts.map Located.value = values at h
  induction h generalizing ts with
  | nil => exact List.map_eq_nil_iff.mp hValues
  | cons head rest ih =>
    obtain ⟨own, after, rfl, rfl, rfl⟩ := List.map_eq_append_iff.mp hValues
    exact ⟨own, after, head, ih rfl, rfl⟩

end InRow

namespace InSeries

theorem cons {s : Span} (head : P a ts) (rest : InSeries m P as ts') :
    InSeries m P (a :: as) (ts ++ ⟨.mark m, s⟩ :: ts') := by
  cases as with
  | nil => cases rest
  | cons b as => exact ⟨ts, s, ts', head, rest, rfl⟩

theorem exists_of_mem (h : InSeries m P as ts) (ha : a ∈ as) : ∃ own, P a own ∧ own <:+: ts := by
  induction as generalizing ts with
  | nil => cases ha
  | cons b as ih =>
    cases as with
    | nil =>
      obtain rfl := List.mem_singleton.mp ha
      exact ⟨ts, h, List.infix_rfl⟩
    | cons b' as =>
      obtain ⟨own, s, after, hHead, hRest, rfl⟩ := h
      rcases List.mem_cons.mp ha with rfl | ha
      · exact ⟨own, hHead, (List.prefix_append _ _).isInfix⟩
      · obtain ⟨own', hOwn', hInfix⟩ := ih hRest ha
        exact ⟨own', hOwn', hInfix.trans ((List.suffix_cons _ _).trans (List.suffix_append _ _)).isInfix⟩

theorem moved {f : Nat → Nat} {g : α → β} {R : β → List (Located Token) → Prop} (h : InSeries m P as ts)
    (hg : ∀ a own, P a own → R (g a) (own.map (Located.moved f))) :
    InSeries m R (as.map g) (ts.map (Located.moved f)) := by
  induction as generalizing ts with
  | nil => cases h
  | cons a as ih =>
    cases as with
    | nil => exact hg a ts h
    | cons b as =>
      obtain ⟨own, s, after, hHead, hRest, rfl⟩ := h
      rw [List.map_append, List.map_cons]
      exact cons (hg a own hHead) (ih hRest)

theorem exchange {g : α → β} (h : InSeries m P as ts) (hQ : ∀ a own, P a own → ∃ a', Q a' own ∧ g a' = g a) :
    ∃ as', InSeries m Q as' ts ∧ as'.map g = as.map g := by
  induction as generalizing ts with
  | nil => cases h
  | cons a as ih =>
    cases as with
    | nil =>
      obtain ⟨a', hOwn, hSame⟩ := hQ a ts h
      exact ⟨[a'], hOwn, by rw [List.map_singleton, List.map_singleton, hSame]⟩
    | cons b as =>
      obtain ⟨own, s, after, hHead, hRest, rfl⟩ := h
      obtain ⟨a', hOwn, hSame⟩ := hQ a own hHead
      obtain ⟨as', hSeries, hSames⟩ := ih hRest
      refine ⟨a' :: as', cons hOwn hSeries, ?_⟩
      rw [List.map_cons, List.map_cons, hSame, hSames]

theorem of_separated (h : Separated m S as (ts.map Located.value)) :
    InSeries m (fun a own => S a (own.map Located.value)) as ts := by
  generalize hValues : ts.map Located.value = values at h
  induction h generalizing ts with
  | last head =>
    subst hValues
    exact head
  | cons head rest ih =>
    obtain ⟨own, after, rfl, rfl, hAfter⟩ := List.map_eq_append_iff.mp hValues
    obtain ⟨s, after, rfl, rfl⟩ := map_value_eq_cons_iff.mp hAfter
    exact cons head (ih rfl)

end InSeries
end Placement
end TypedMarkup
