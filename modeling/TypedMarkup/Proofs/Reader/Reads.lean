import TypedMarkup.Proofs.Reader.Ensures
import TypedMarkup.Proofs.Token.Spelling

/-! # What readers read

A reader reads a spelling if the tokens that it takes always spell the value that it returns. There is a
rule for each way to combine readers, and each rule accounts for all the tokens taken.
-/
namespace TypedMarkup.Reader
set_option autoImplicit false
open Spelling

variable {α β : Type}

/-- The tokens taken, without their places, are a spelling of the value. -/
def Reads (p : Reader α) (S : α → List Token → Prop) : Prop :=
  Ensures p fun taken a => S a (taken.map Located.value)

namespace Reads

variable {p q : Reader α} {S : α → List Token → Prop}

theorem mono {R : α → List Token → Prop} (h : Reads p S) (hSR : ∀ a ts, S a ts → R a ts) : Reads p R :=
  Ensures.mono h fun _ a => hSR a _

theorem pure {a : α} (h : S a []) : Reads (Pure.pure a) S := Ensures.pure h

theorem bind {f : α → Reader β} {R : β → List Token → Prop} (hp : Reads p S)
    (hf : ∀ a ts, S a ts → Reads (f a) fun b ts' => R b (ts ++ ts')) : Reads (p >>= f) R := by
  apply Ensures.bind
  apply Ensures.mono hp
  intro taken a hS
  apply Ensures.mono (hf a _ hS)
  intro taken' b hR
  rwa [List.map_append]

theorem orElse (hp : Reads p S) (hq : Reads q S) : Reads (Reader.orElse p q) S := Ensures.orElse hp hq

theorem satisfy {wanted : Option Expectation} {pick : Token → Option α}
    (h : ∀ t a, pick t = some a → S a [t]) : Reads (Reader.satisfy wanted pick) S :=
  Ensures.satisfy fun t a => h t.value a

theorem spanning {p : Reader (Span → α)} (h : Reads p fun f ts => ∀ span, S (f span) ts) :
    Reads (Reader.spanning p) S := by
  intro c a c' hRead
  obtain ⟨f, hInner, rfl⟩ := spanning_eq_some_iff.mp hRead
  obtain ⟨taken, hPasses, hS⟩ := h c f c' hInner
  exact ⟨taken, hPasses, hS _⟩

theorem many (h : Reads p S) : Reads (Reader.many p) (Row S) := by
  apply Ensures.many h
  · exact .nil
  · intro taken a taken' as hHead hRest
    rw [List.map_append]
    exact .cons hHead hRest

/-- What is read up to the end of the source is spelled by all of its tokens. -/
theorem whole (hp : Reads p S) {f : α → β} {tokens : List (Located Token)} {b : β} {c : Cursor}
    (hRead : ((do let a ← p; endOfSource; return f a : Reader β) (.ofTokens tokens)).result = some (b, c)) :
    ∃ a, b = f a ∧ S a (tokens.map Located.value) := by
  obtain ⟨a, c', hFirst, hRest⟩ := bind_eq_some_iff.mp hRead
  obtain ⟨_, c'', hEnd, hReturn⟩ := bind_eq_some_iff.mp hRest
  obtain ⟨hNil, -⟩ := endOfSource_eq_some_iff.mp hEnd
  obtain ⟨taken, hPasses, hS⟩ := hp _ a c' hFirst
  have hTokens : tokens = taken := by
    have hAll : tokens = taken ++ c'.rest := hPasses.rest
    rwa [hNil, List.append_nil] at hAll
  cases hReturn
  rw [hTokens]
  exact ⟨a, rfl, hS⟩

end Reads
end TypedMarkup.Reader
