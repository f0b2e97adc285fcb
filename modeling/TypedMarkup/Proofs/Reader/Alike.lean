import Mathlib.Data.List.Forall2
import TypedMarkup.Proofs.Reader.Ensures

/-! # Readers at other places

A reader looks at what the tokens are and not at where they stand: in front of the same tokens it refuses the same
ones, and reads values that differ in their spans only. There is a rule for each way to combine readers.
-/
namespace TypedMarkup
set_option autoImplicit false

/-- In front of the same tokens, behind as many of them. -/
structure Cursor.Alike (c c' : Cursor) : Prop where
  index : c.index = c'.index
  values : c.rest.map Located.value = c'.rest.map Located.value

/-- The same refusals; and related values in front of the same tokens, or no values. -/
inductive Reply.Alike {α β : Type} (R : α → β → Prop) : Reply α → Reply β → Prop
  | refuses (misses : List Miss) : Alike R ⟨none, misses⟩ ⟨none, misses⟩
  | reads {a : α} {b : β} {c c' : Cursor} (misses : List Miss) (h : R a b) (hc : c.Alike c') :
      Alike R ⟨some (a, c), misses⟩ ⟨some (b, c'), misses⟩

/-- Two values that a map does not tell apart. -/
def SameUnder {α β : Type} (g : α → β) (a b : α) : Prop := g a = g b

theorem eq_of_forall₂_eq {α : Type} {as bs : List α} (h : List.Forall₂ Eq as bs) : as = bs := by
  rwa [List.forall₂_eq_eq_eq] at h

theorem forall₂_sameUnder_iff {α β : Type} {g : α → β} {as bs : List α} :
    List.Forall₂ (SameUnder g) as bs ↔ as.map g = bs.map g := by
  rw [← List.forall₂_eq_eq_eq, List.forall₂_map_left_iff, List.forall₂_map_right_iff]
  rfl

theorem Cursor.Alike.ofTokens {ts ts' : List (Located Token)} (h : ts.map Located.value = ts'.map Located.value) :
    (Cursor.ofTokens ts).Alike (Cursor.ofTokens ts') := ⟨rfl, h⟩

theorem Cursor.Alike.length_eq {c c' : Cursor} (h : c.Alike c') : c.rest.length = c'.rest.length := by
  rw [← List.length_map Located.value, h.values, List.length_map]

namespace Reader

variable {α β γ δ : Type}

/-- In front of the same tokens the two readers reply alike. -/
def Alike (R : α → β → Prop) (p : Reader α) (q : Reader β) : Prop :=
  ∀ ⦃c c' : Cursor⦄, c.Alike c' → (p c).Alike R (q c')

namespace Alike

variable {R : α → β → Prop} {S : γ → δ → Prop} {p : Reader α} {q : Reader β}

theorem mono {R' : α → β → Prop} (h : Alike R p q) (hR : ∀ a b, R a b → R' a b) : Alike R' p q := by
  intro c c' hc
  have hReply := h hc
  generalize p c = reply at hReply ⊢
  generalize q c' = reply' at hReply ⊢
  cases hReply with
  | refuses misses => exact .refuses misses
  | reads misses hValues hRest => exact .reads misses (hR _ _ hValues) hRest

theorem pure {a : α} {b : β} (h : R a b) : Alike R (Pure.pure a) (Pure.pure b) :=
  fun _ _ hc => .reads [] h hc

theorem bind {f : α → Reader γ} {g : β → Reader δ} (h : Alike R p q)
    (hf : ∀ a b, R a b → Alike S (f a) (g b)) : Alike S (p >>= f) (q >>= g) := by
  intro c c' hc
  change Reply.Alike S (Reader.bind p f c) (Reader.bind q g c')
  rw [Reader.bind, Reader.bind]
  have hFirst := h hc
  generalize p c = first at hFirst ⊢
  generalize q c' = first' at hFirst ⊢
  cases hFirst with
  | refuses misses => exact .refuses misses
  | @reads a b d d' misses hValues hRest =>
    have hSecond := hf a b hValues hRest
    dsimp only
    generalize f a d = second at hSecond ⊢
    generalize g b d' = second' at hSecond ⊢
    cases hSecond with
    | refuses misses' => exact .refuses _
    | reads misses' hValues' hRest' => exact .reads _ hValues' hRest'

theorem orElse {p' : Reader α} {q' : Reader β} (h : Alike R p q) (h' : Alike R p' q') :
    Alike R (Reader.orElse p p') (Reader.orElse q q') := by
  intro c c' hc
  rw [Reader.orElse, Reader.orElse]
  have hFirst := h hc
  have hSecond := h' hc
  generalize p c = first at hFirst ⊢
  generalize q c' = first' at hFirst ⊢
  cases hFirst with
  | reads misses hValues hRest => exact .reads misses hValues hRest
  | refuses misses =>
    dsimp only
    generalize p' c = second at hSecond ⊢
    generalize q' c' = second' at hSecond ⊢
    cases hSecond with
    | refuses misses' => exact .refuses _
    | reads misses' hValues hRest => exact .reads _ hValues hRest

theorem satisfy {R : α → α → Prop} {wanted : Option Expectation} {pick : Token → Option α}
    (h : ∀ t a, pick t = some a → R a a) : Alike R (Reader.satisfy wanted pick) (Reader.satisfy wanted pick) := by
  intro c c' hc
  obtain ⟨index, last, rest⟩ := c
  obtain ⟨index', last', rest'⟩ := c'
  obtain rfl : index = index' := hc.index
  have hValues := hc.values
  rw [Reader.satisfy, Reader.satisfy]
  cases rest with
  | nil =>
    obtain rfl : rest' = [] := List.map_eq_nil_iff.mp hValues.symm
    exact .refuses _
  | cons t rest =>
    obtain ⟨t', rest', rfl, hHead, hRest⟩ := List.map_eq_cons_iff.mp hValues.symm
    dsimp only
    rw [hHead]
    cases hPick : pick t.value with
    | none => exact .refuses _
    | some a => exact .reads [] (h t.value a hPick) ⟨rfl, hRest.symm⟩

theorem endOfSource : Alike Eq Reader.endOfSource Reader.endOfSource := by
  intro c c' hc
  have hLength := hc.length_eq
  obtain ⟨index, last, rest⟩ := c
  obtain ⟨index', last', rest'⟩ := c'
  obtain rfl : index = index' := hc.index
  cases rest <;> cases rest'
  case nil.nil => exact .reads [] rfl hc
  case cons.cons => exact .refuses _
  case nil.cons => cases hLength
  case cons.nil => cases hLength

theorem spanning {p : Reader (Span → α)} {q : Reader (Span → β)}
    (h : Alike (fun f g => ∀ s s', R (f s) (g s')) p q) : Alike R (Reader.spanning p) (Reader.spanning q) := by
  intro c c' hc
  rw [Reader.spanning, Reader.spanning]
  have hReply := h hc
  generalize p c = reply at hReply ⊢
  generalize q c' = reply' at hReply ⊢
  cases hReply with
  | refuses misses => exact .refuses misses
  | reads misses hValues hRest => exact .reads misses (hValues _ _) hRest

theorem located {p : Reader α} {q : Reader β} (h : Alike R p q) :
    Alike (fun a b => R a.value b.value) (Reader.located p) (Reader.located q) := by
  apply spanning
  apply h.bind
  intro a b hValues
  exact pure fun _ _ => hValues

theorem fix {step : Reader α → Reader α} {step' : Reader β → Reader β}
    (h : ∀ p q, Alike R p q → Alike R (step p) (step' q)) : Alike R (Reader.fix step) (Reader.fix step') := by
  -- However often the two refer to themselves, each time they reply alike.
  have hApproximation : ∀ n, Alike R (approximation step n) (approximation step' n) := by
    intro n
    induction n with
    | zero =>
      intro c c' hc
      rw [approximation, approximation]
      dsimp only
      rw [hc.index]
      exact .refuses _
    | succ n ih => exact h _ _ ih
  intro c c' hc
  rw [Reader.fix, Reader.fix, hc.length_eq]
  exact hApproximation _ hc

theorem many (h : Alike R p q) : Alike (List.Forall₂ R) (Reader.many p) (Reader.many q) := by
  apply fix
  intro more more' hMore
  apply orElse
  · apply h.bind
    intro a b hHead
    apply hMore.bind
    intro as bs hRest
    exact pure (.cons hHead hRest)
  · exact pure .nil

theorem maybe (h : Alike R p q) : Alike (Option.Rel R) (Reader.maybe p) (Reader.maybe q) := by
  apply orElse
  · apply h.bind
    intro a b hValues
    exact pure (.some hValues)
  · exact pure .none

theorem mark (m : Mark) : Alike Eq (Reader.mark m) (Reader.mark m) := satisfy fun _ _ _ => rfl

theorem keyword (k : Keyword) : Alike Eq (Reader.keyword k) (Reader.keyword k) := satisfy fun _ _ _ => rfl

theorem name : Alike Eq Reader.name Reader.name := satisfy fun _ _ _ => rfl

theorem between (before after : Mark) (h : Alike R p q) :
    Alike R (Reader.between before after p) (Reader.between before after q) := by
  apply (mark before).bind
  intro _ _ _
  apply h.bind
  intro a b hValues
  apply (mark after).bind
  intro _ _ _
  exact pure hValues

theorem separated (m : Mark) (h : Alike R p q) :
    Alike (List.Forall₂ R) (Reader.separated m p) (Reader.separated m q) := by
  apply h.bind
  intro first first' hFirst
  have hOther : Alike R (do Reader.mark m; p) (do Reader.mark m; q) := (mark m).bind fun _ _ _ => h
  apply hOther.many.bind
  intro others others' hOthers
  exact pure (.cons hFirst hOthers)

end Alike
end Reader
end TypedMarkup
