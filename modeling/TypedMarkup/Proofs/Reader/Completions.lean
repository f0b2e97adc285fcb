import TypedMarkup.Proofs.Reader.Reads

/-! # What refused tokens could have been

Where a reader refuses a token, what was taken up to there can go on: with a token that was wanted, it begins a
spelling. There is a rule for each way to combine readers, which completes what is begun in one part by any
spelling of the parts behind it.
-/
namespace TypedMarkup
set_option autoImplicit false
open Spelling

/-- The token that is expected. The end of the source is none. -/
def Expectation.token? : Expectation → Option Token
  | keyword k => some (.keyword k)
  | mark m => some (.mark m)
  | endOfSource => none

/-- The token is the one that was wanted, or there was none in particular. -/
def Miss.Wants (m : Miss) (t : Token) : Prop := ∀ x, m.wanted = some x → x.token? = some t

namespace Reader

variable {α β : Type}

/-- A reader of spellings that, where it refuses a token, has begun one. -/
structure Completes (p : Reader α) (S : α → List Token → Prop) : Prop where
  reads : Reads p S
  possible : ∃ a ts, S a ts
  misses : ∀ c, ∀ m ∈ (p c).misses, ∃ before t more a, before <+: c.rest ∧ m.index = c.index + before.length ∧
    m.Wants t ∧ S a (before.map Located.value ++ t :: more)

namespace Completes

variable {p q : Reader α} {S : α → List Token → Prop}

theorem mono {R : α → List Token → Prop} (h : Completes p S) (hSR : ∀ a ts, S a ts → R a ts) : Completes p R where
  reads := h.reads.mono hSR
  possible := by
    obtain ⟨a, ts, hS⟩ := h.possible
    exact ⟨a, ts, hSR a ts hS⟩
  misses c m hm := by
    obtain ⟨before, t, more, a, hBefore, hIndex, hWants, hS⟩ := h.misses c m hm
    exact ⟨before, t, more, a, hBefore, hIndex, hWants, hSR a _ hS⟩

theorem pure {a : α} (h : S a []) : Completes (Pure.pure a) S where
  reads := Reads.pure h
  possible := ⟨a, [], h⟩
  misses := nofun

theorem bind {f : α → Reader β} {R : β → List Token → Prop} (hp : Completes p S)
    (hf : ∀ a ts, S a ts → Completes (f a) fun b ts' => R b (ts ++ ts')) : Completes (p >>= f) R where
  reads := hp.reads.bind fun a ts hS => (hf a ts hS).reads
  possible := by
    obtain ⟨a, ts, hS⟩ := hp.possible
    obtain ⟨b, ts', hR⟩ := (hf a ts hS).possible
    exact ⟨b, ts ++ ts', hR⟩
  misses c m hm := by
    change m ∈ (Reader.bind p f c).misses at hm
    rw [Reader.bind] at hm
    have hOwn : m ∈ (p c).misses → ∃ before t more b, before <+: c.rest ∧ m.index = c.index + before.length ∧
        m.Wants t ∧ R b (before.map Located.value ++ t :: more) := by
      intro hFirst
      obtain ⟨before, t, more, a, hBefore, hIndex, hWants, hS⟩ := hp.misses c m hFirst
      obtain ⟨b, ts', hR⟩ := (hf a _ hS).possible
      rw [List.append_assoc, List.cons_append] at hR
      exact ⟨before, t, more ++ ts', b, hBefore, hIndex, hWants, hR⟩
    cases hFirst : (p c).result with
    | none =>
      rw [hFirst] at hm
      exact hOwn hm
    | some read =>
      obtain ⟨a, c'⟩ := read
      rw [hFirst] at hm
      rcases List.mem_append.mp hm with hm | hm
      · exact hOwn hm
      · -- What was taken by the first reader stands in front of what the second has begun.
        obtain ⟨taken, hPasses, hS⟩ := hp.reads c a c' hFirst
        obtain ⟨before, t, more, b, hBefore, hIndex, hWants, hR⟩ := (hf a _ hS).misses c' m hm
        refine ⟨taken ++ before, t, more, b, ?_, ?_, hWants, ?_⟩
        · rw [hPasses.rest]
          exact (List.prefix_append_right_inj taken).mpr hBefore
        · rw [hIndex, hPasses.index, List.length_append, Nat.add_assoc]
        · rwa [List.map_append, List.append_assoc]

theorem map {f : α → β} {R : β → List Token → Prop} (hp : Completes p S) (hf : ∀ a ts, S a ts → R (f a) ts) :
    Completes (do return f (← p)) R := by
  apply hp.bind
  intro a ts hS
  apply pure
  rw [List.append_nil]
  exact hf a ts hS

theorem orElse (hp : Completes p S) (hq : Completes q S) : Completes (Reader.orElse p q) S where
  reads := hp.reads.orElse hq.reads
  possible := hp.possible
  misses c m hm := by
    rw [Reader.orElse] at hm
    cases hFirst : (p c).result with
    | some read =>
      rw [hFirst] at hm
      exact hp.misses c m hm
    | none =>
      rw [hFirst] at hm
      rcases List.mem_append.mp hm with hm | hm
      · exact hp.misses c m hm
      · exact hq.misses c m hm

theorem satisfy {wanted : Option Expectation} {pick : Token → Option α} (h : ∀ t a, pick t = some a → S a [t])
    {t : Token} {a : α} (hPick : pick t = some a) (hWanted : ∀ x, wanted = some x → x.token? = some t) :
    Completes (Reader.satisfy wanted pick) S where
  reads := Reads.satisfy h
  possible := ⟨a, [t], h t a hPick⟩
  misses c m hm := by
    have hMiss : m = ⟨c.index, wanted⟩ := by
      rw [Reader.satisfy] at hm
      split at hm
      · exact List.mem_singleton.mp hm
      · split at hm
        · cases hm
        · exact List.mem_singleton.mp hm
    subst hMiss
    exact ⟨[], t, [], a, List.nil_prefix, rfl, hWanted, h t a hPick⟩

theorem exactly {x : Expectation} {t : Token} (h : x.token? = some t) :
    Completes (Reader.satisfy (some x) fun t' => if t' = t then some () else none) fun _ ts => ts = [t] := by
  refine satisfy (t := t) ?_ (if_pos rfl) ?_
  · intro t' _ hPick
    split at hPick
    case isTrue hSame => rw [hSame]
    case isFalse => cases hPick
  · rintro _ ⟨⟩
    exact h

theorem mark (m : Mark) : Completes (Reader.mark m) fun _ ts => ts = [.mark m] := exactly rfl

theorem keyword (k : Keyword) : Completes (Reader.keyword k) fun _ ts => ts = [.keyword k] := exactly rfl

theorem name : Completes Reader.name fun n ts => ts = [.identifier n] := by
  refine satisfy (t := .identifier "x") ?_ rfl nofun
  intro t n hPick
  split at hPick
  case h_1 =>
    cases hPick
    rfl
  case h_2 => cases hPick

theorem spanning {p : Reader (Span → α)} (h : Completes p fun f ts => ∀ span, S (f span) ts) :
    Completes (Reader.spanning p) S where
  reads := h.reads.spanning
  possible := by
    obtain ⟨f, ts, hS⟩ := h.possible
    exact ⟨f ⟨0, 0⟩, ts, hS _⟩
  misses c m hm := by
    obtain ⟨before, t, more, f, hBefore, hIndex, hWants, hS⟩ := h.misses c m hm
    exact ⟨before, t, more, f ⟨0, 0⟩, hBefore, hIndex, hWants, hS _⟩

theorem located (h : Completes p S) : Completes (Reader.located p) fun a ts => S a.value ts := by
  apply spanning
  apply h.bind
  intro a ts hS
  apply pure
  intro span
  rwa [List.append_nil]

/-- Where no more references are allowed, any token begins a spelling. -/
theorem fix {step : Reader α → Reader α} (hStart : ∃ a t more, S a (t :: more))
    (h : ∀ p, Completes p S → Completes (step p) S) : Completes (Reader.fix step) S := by
  have hApproximation : ∀ n, Completes (approximation step n) S := by
    intro n
    induction n with
    | zero =>
      obtain ⟨a, t, more, hS⟩ := hStart
      exact {
        reads := nofun
        possible := ⟨a, t :: more, hS⟩
        misses := fun c m hm => by
          obtain rfl := List.mem_singleton.mp hm
          exact ⟨[], t, more, a, List.nil_prefix, rfl, nofun, hS⟩ }
    | succ n ih => exact h _ ih
  exact {
    reads := fun c => (hApproximation (c.rest.length + 1)).reads c
    possible := (hApproximation 0).possible
    misses := fun c => (hApproximation (c.rest.length + 1)).misses c }

theorem many {Q : List α → List Token → Prop} (h : Completes p S) (hStart : ∃ a t more, S a (t :: more))
    (hNil : Q [] []) (hCons : ∀ a ts as ts', S a ts → Q as ts' → Q (a :: as) (ts ++ ts')) :
    Completes (Reader.many p) Q := by
  apply fix
  · obtain ⟨a, t, more, hS⟩ := hStart
    have hRow := hCons a (t :: more) [] [] hS hNil
    rw [List.append_nil] at hRow
    exact ⟨[a], t, more, hRow⟩
  intro more hMore
  apply orElse
  · apply h.bind
    intro a ts hS
    apply hMore.map
    intro as ts' hQ
    exact hCons a ts as ts' hS hQ
  · exact pure hNil

theorem row (h : Completes p S) (hStart : ∃ a t more, S a (t :: more)) : Completes (Reader.many p) (Row S) :=
  h.many hStart .nil fun _ _ _ _ => .cons

theorem separated (m : Mark) (h : Completes p S) : Completes (Reader.separated m p) (Separated m S) := by
  -- Values with a mark in front of each make up a row behind any value.
  have hOther : Completes (do Reader.mark m; p) fun a ts => ∃ own, S a own ∧ ts = .mark m :: own := by
    apply (mark m).bind
    rintro _ _ rfl
    apply h.mono
    intro a own hOwn
    exact ⟨own, hOwn, rfl⟩
  have hOthers : Completes (Reader.many (do Reader.mark m; p)) fun others ts' =>
      ∀ first ts, S first ts → Separated m S (first :: others) (ts ++ ts') := by
    apply hOther.many
    · obtain ⟨a, ts, hS⟩ := h.possible
      exact ⟨a, .mark m, ts, ts, hS, rfl⟩
    · intro first ts hS
      rw [List.append_nil]
      exact .last hS
    · rintro a _ as ts' ⟨own, hOwn, rfl⟩ hRest first ts hS
      exact .cons hS (hRest a own hOwn)
  apply h.bind
  intro first ts hS
  apply hOthers.map
  intro others ts' hRest
  exact hRest first ts hS

theorem maybe (h : Completes p S) : Completes (Reader.maybe p) (Optional S) := by
  apply orElse
  · exact h.map fun _ _ hS => hS
  · exact pure (show Optional S none [] from rfl)

theorem between (before after : Mark) (h : Completes p S) :
    Completes (Reader.between before after p)
      fun a ts => ∃ inner, S a inner ∧ ts = .mark before :: (inner ++ [.mark after]) := by
  apply (mark before).bind
  rintro _ _ rfl
  apply h.bind
  intro a inner hS
  apply (mark after).map
  rintro _ _ rfl
  exact ⟨inner, hS, rfl⟩

end Completes
end Reader
end TypedMarkup
