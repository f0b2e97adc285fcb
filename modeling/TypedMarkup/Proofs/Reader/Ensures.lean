import TypedMarkup.Reader

/-! # What readers take

A reader that succeeds has taken tokens from the front. `Ensures` says what holds of these tokens and the
value read; there is a rule for each way to combine readers. A reader that refers to itself keeps
whatever every single step keeps.
-/
namespace TypedMarkup
set_option autoImplicit false

/-- The bytes from the first of some tokens to the last. -/
def Span.ofTokens (tokens : List (Located Token)) : Span where
  start := (tokens.head?.map fun t => t.span.start).getD 0
  stop := (tokens.getLast?.map fun t => t.span.stop).getD 0

theorem Span.exists_ofTokens {tokens : List (Located Token)} (h : tokens ≠ []) :
    ∃ first ∈ tokens.head?, ∃ last ∈ tokens.getLast?, ofTokens tokens = ⟨first.span.start, last.span.stop⟩ := by
  have hHead := List.head?_eq_some_head h
  have hLast := List.getLast?_eq_some_getLast h
  refine ⟨tokens.head h, hHead, tokens.getLast h, hLast, ?_⟩
  rw [ofTokens, hHead, hLast]
  rfl

namespace Cursor

/-- One cursor comes from another by taking tokens. -/
structure Passes (c : Cursor) (taken : List (Located Token)) (c' : Cursor) : Prop where
  rest : c.rest = taken ++ c'.rest
  index : c'.index = c.index + taken.length
  last : c'.last = (taken.getLast?.map fun t => t.span.stop).getD c.last

theorem Passes.refl (c : Cursor) : c.Passes [] c := ⟨rfl, rfl, rfl⟩

theorem Passes.trans {c c' c'' : Cursor} {taken taken' : List (Located Token)} (h : c.Passes taken c')
    (h' : c'.Passes taken' c'') : c.Passes (taken ++ taken') c'' where
  rest := by rw [h.rest, h'.rest, List.append_assoc]
  index := by rw [h'.index, h.index, List.length_append, Nat.add_assoc]
  last := by
    rw [h'.last, h.last, List.getLast?_append]
    cases taken'.getLast? <;> rfl

theorem Passes.span_eq {c c' : Cursor} {taken : List (Located Token)} (h : c.Passes taken c')
    (hTaken : taken ≠ []) : (⟨c.start, c'.last⟩ : Span) = Span.ofTokens taken := by
  obtain ⟨t, rest, rfl⟩ := List.exists_cons_of_ne_nil hTaken
  have hLast := h.last
  rw [List.getLast?_cons] at hLast
  rw [start, h.rest, hLast, Span.ofTokens, List.getLast?_cons]
  rfl

end Cursor

namespace Reader

variable {α β : Type}

theorem bind_eq_some_iff {p : Reader α} {q : α → Reader β} {c c'' : Cursor} {b : β} :
    ((p >>= q) c).result = some (b, c'') ↔
      ∃ a c', (p c).result = some (a, c') ∧ (q a c').result = some (b, c'') := by
  change (Reader.bind p q c).result = _ ↔ _
  rw [Reader.bind]
  cases (p c).result with
  | none => simp
  | some first =>
    obtain ⟨a, c'⟩ := first
    constructor
    · intro h
      exact ⟨a, c', rfl, h⟩
    · rintro ⟨_, _, ⟨⟩, h⟩
      exact h

theorem orElse_result (p q : Reader α) (c : Cursor) :
    (orElse p q c).result = (p c).result.or (q c).result := by
  rw [orElse]
  cases h : (p c).result <;> simp [h]

theorem satisfy_eq_some_iff {wanted : Option Expectation} {pick : Token → Option α} {c c' : Cursor} {a : α} :
    (satisfy wanted pick c).result = some (a, c') ↔
      ∃ t rest, c.rest = t :: rest ∧ pick t.value = some a ∧ c' = ⟨c.index + 1, t.span.stop, rest⟩ := by
  rw [satisfy]
  cases c.rest with
  | nil => simp
  | cons t rest =>
    cases hPick : pick t.value with
    | none => simp [hPick]
    | some b =>
      simp only [hPick]
      constructor
      · rintro ⟨⟩
        exact ⟨t, rest, rfl, hPick, rfl⟩
      · rintro ⟨_, _, ⟨⟩, hPick', rfl⟩
        cases hPick.symm.trans hPick'
        rfl

theorem spanning_eq_some_iff {p : Reader (Span → α)} {c c' : Cursor} {a : α} :
    (spanning p c).result = some (a, c') ↔
      ∃ f, (p c).result = some (f, c') ∧ a = f ⟨c.start, c'.last⟩ := by
  rw [spanning]
  cases (p c).result with
  | none => simp
  | some first =>
    obtain ⟨f, c''⟩ := first
    simp only [Option.map_some, Option.some.injEq, Prod.mk.injEq]
    constructor
    · rintro ⟨rfl, rfl⟩
      exact ⟨f, ⟨rfl, rfl⟩, rfl⟩
    · rintro ⟨g, ⟨rfl, rfl⟩, rfl⟩
      exact ⟨rfl, rfl⟩

/-- What holds of the tokens that a reader takes and of the value that it reads. -/
def Ensures (p : Reader α) (Q : List (Located Token) → α → Prop) : Prop :=
  ∀ c a c', (p c).result = some (a, c') → ∃ taken, c.Passes taken c' ∧ Q taken a

/-- Nothing but that tokens are taken from the front. -/
def Advances (p : Reader α) : Prop := Ensures p fun _ _ => True

def Takes (p : Reader α) : Prop := Ensures p fun taken _ => taken ≠ []

namespace Ensures

variable {p q : Reader α} {P Q : List (Located Token) → α → Prop}

theorem mono (h : Ensures p P) (hPQ : ∀ taken a, P taken a → Q taken a) : Ensures p Q := by
  intro c a c' hRead
  obtain ⟨taken, hPasses, hP⟩ := h c a c' hRead
  exact ⟨taken, hPasses, hPQ taken a hP⟩

theorem advances (h : Ensures p P) : Advances p := h.mono fun _ _ _ => trivial

theorem pure {a : α} (h : Q [] a) : Ensures (Pure.pure a) Q := by
  intro c b c' hRead
  cases hRead
  exact ⟨[], .refl c, h⟩

theorem bind {f : α → Reader β} {R : List (Located Token) → β → Prop}
    (h : Ensures p fun taken a => Ensures (f a) fun taken' b => R (taken ++ taken') b) :
    Ensures (p >>= f) R := by
  intro c b c'' hRead
  obtain ⟨a, c', hFirst, hSecond⟩ := bind_eq_some_iff.mp hRead
  obtain ⟨taken, hPasses, hRest⟩ := h c a c' hFirst
  obtain ⟨taken', hPasses', hR⟩ := hRest c' b c'' hSecond
  exact ⟨taken ++ taken', hPasses.trans hPasses', hR⟩

theorem orElse (hp : Ensures p Q) (hq : Ensures q Q) : Ensures (Reader.orElse p q) Q := by
  intro c a c' hRead
  rw [orElse_result, Option.or_eq_some_iff] at hRead
  rcases hRead with hRead | ⟨-, hRead⟩
  · exact hp c a c' hRead
  · exact hq c a c' hRead

theorem satisfy {wanted : Option Expectation} {pick : Token → Option α}
    (h : ∀ t a, pick t.value = some a → Q [t] a) : Ensures (Reader.satisfy wanted pick) Q := by
  intro c a c' hRead
  obtain ⟨t, rest, hRest, hPick, rfl⟩ := satisfy_eq_some_iff.mp hRead
  exact ⟨[t], ⟨hRest, rfl, rfl⟩, h t a hPick⟩

theorem spanning {p : Reader (Span → α)}
    (h : Ensures p fun taken f => taken ≠ [] ∧ Q taken (f (Span.ofTokens taken))) :
    Ensures (Reader.spanning p) Q := by
  intro c a c' hRead
  obtain ⟨f, hInner, rfl⟩ := spanning_eq_some_iff.mp hRead
  obtain ⟨taken, hPasses, hTaken, hQ⟩ := h c f c' hInner
  refine ⟨taken, hPasses, ?_⟩
  rw [hPasses.span_eq hTaken]
  exact hQ

theorem fix {step : Reader α → Reader α} (h : ∀ p, Ensures p Q → Ensures (step p) Q) :
    Ensures (Reader.fix step) Q := by
  -- The approximation that refers to itself no more reads nothing, so that it ensures anything.
  have hApproximation : ∀ n, Ensures (approximation step n) Q := by
    intro n
    induction n with
    | zero =>
      intro c a c' hRead
      cases hRead
    | succ n ih => exact h _ ih
  intro c
  exact hApproximation (c.rest.length + 1) c

theorem many {Qs : List (Located Token) → List α → Prop} (h : Ensures p Q) (hNil : Qs [] [])
    (hCons : ∀ taken a taken' as, Q taken a → Qs taken' as → Qs (taken ++ taken') (a :: as)) :
    Ensures (Reader.many p) Qs := by
  apply fix
  intro more hMore
  apply orElse
  · apply bind
    apply h.mono
    intro taken a hQ
    apply bind
    apply hMore.mono
    intro taken' as hQs
    apply pure
    rw [List.append_nil]
    exact hCons taken a taken' as hQ hQs
  · exact pure hNil

theorem maybe {Qo : List (Located Token) → Option α → Prop} (h : Ensures p fun taken a => Qo taken (some a))
    (hNone : Qo [] none) : Ensures (Reader.maybe p) Qo := by
  apply orElse
  · apply bind
    apply h.mono
    intro taken a hQ
    apply pure
    rwa [List.append_nil]
  · exact pure hNone

end Ensures

theorem ensures_mark (m : Mark) : Ensures (mark m) fun taken _ => ∃ t, taken = [t] ∧ t.value = .mark m := by
  apply Ensures.satisfy
  intro t a hPick
  split at hPick
  case isTrue h => exact ⟨t, rfl, h⟩
  case isFalse => cases hPick

theorem ensures_between {p : Reader α} {Q P : List (Located Token) → α → Prop} {before after : Mark}
    (h : Ensures p P)
    (hQ : ∀ t taken a t', t.value = .mark before → P taken a → t'.value = .mark after →
      Q (t :: taken ++ [t']) a) : Ensures (between before after p) Q := by
  apply Ensures.bind
  apply (ensures_mark before).mono
  rintro _ - ⟨t, rfl, ht⟩
  apply Ensures.bind
  apply h.mono
  intro taken a hP
  apply Ensures.bind
  apply (ensures_mark after).mono
  rintro _ - ⟨t', rfl, ht'⟩
  apply Ensures.pure
  simpa using hQ t taken a t' ht hP ht'

theorem ensures_separated {p : Reader α} {Q : List (Located Token) → α → Prop}
    {Qs : List (Located Token) → List α → Prop} {m : Mark} (h : Ensures p Q)
    (hLast : ∀ taken a, Q taken a → Qs taken [a])
    (hCons : ∀ taken a t taken' as, Q taken a → t.value = .mark m → Qs taken' as →
      Qs (taken ++ t :: taken') (a :: as)) :
    Ensures (separated m p) Qs := by
  apply Ensures.bind
  apply h.mono
  intro taken first hFirst
  apply Ensures.bind
  -- Behind a value come others: with any value in front of them they still make up a row.
  have hOthers : Ensures (many (do mark m; p))
      fun taken' others => ∀ taken first, Q taken first → Qs (taken ++ taken') (first :: others) := by
    have hOther : Ensures (do mark m; p)
        fun taken a => ∃ t taken', taken = t :: taken' ∧ t.value = .mark m ∧ Q taken' a := by
      apply Ensures.bind
      apply (ensures_mark m).mono
      rintro _ _ ⟨t, rfl, ht⟩
      apply h.mono
      intro taken' a hQ
      exact ⟨t, taken', rfl, ht, hQ⟩
    apply hOther.many
    · intro taken first hQ
      rw [List.append_nil]
      exact hLast taken first hQ
    · rintro _ a taken' as ⟨t, inner, rfl, ht, hQ⟩ hRest taken first hFirst
      exact hCons taken first t (inner ++ taken') (a :: as) hFirst ht (hRest inner a hQ)
  apply hOthers.mono
  intro taken' others hRest
  apply Ensures.pure
  rw [List.append_nil]
  exact hRest taken first hFirst

theorem endOfSource_eq_some_iff {c c' : Cursor} {a : Unit} :
    (endOfSource c).result = some (a, c') ↔ c.rest = [] ∧ c' = c := by
  rw [endOfSource]
  cases c.rest <;> simp [eq_comm]

theorem advances_endOfSource : Advances endOfSource := by
  intro c a c' hRead
  obtain ⟨-, rfl⟩ := endOfSource_eq_some_iff.mp hRead
  exact ⟨[], .refl _, trivial⟩

namespace Advances

variable {p : Reader α}

theorem bind {q : α → Reader β} (hp : Advances p) (hq : ∀ a, Advances (q a)) : Advances (p >>= q) :=
  Ensures.bind (hp.mono fun _ a _ => hq a)

theorem maybe (hp : Advances p) : Advances (Reader.maybe p) := Ensures.maybe hp trivial

theorem many (hp : Advances p) : Advances (Reader.many p) :=
  Ensures.many hp trivial fun _ _ _ _ _ _ => trivial

theorem between (before after : Mark) (hp : Advances p) : Advances (Reader.between before after p) :=
  ensures_between hp fun _ _ _ _ _ _ _ => trivial

theorem separated (m : Mark) (hp : Advances p) : Advances (Reader.separated m p) :=
  ensures_separated hp (fun _ _ _ => trivial) fun _ _ _ _ _ _ _ _ => trivial

end Advances

namespace Takes

theorem satisfy (wanted : Option Expectation) (pick : Token → Option α) : Takes (Reader.satisfy wanted pick) :=
  Ensures.satisfy fun t _ _ => List.cons_ne_nil t []

theorem mark (m : Mark) : Takes (Reader.mark m) := satisfy _ _

theorem keyword (k : Keyword) : Takes (Reader.keyword k) := satisfy _ _

theorem name : Takes Reader.name := satisfy _ _

theorem bind {p : Reader α} {q : α → Reader β} (hp : Takes p) (hq : ∀ a, Advances (q a)) : Takes (p >>= q) := by
  apply Ensures.bind
  apply hp.mono
  intro taken a hTaken
  apply (hq a).mono
  intro taken' b _
  exact List.append_ne_nil_of_left_ne_nil hTaken taken'

theorem spanning {p : Reader (Span → α)} (hp : Takes p) : Takes (Reader.spanning p) := by
  apply Ensures.spanning
  apply hp.mono
  intro taken f hTaken
  exact ⟨hTaken, hTaken⟩

theorem located {p : Reader α} (hp : Takes p) : Takes (Reader.located p) := by
  apply spanning
  apply hp.bind
  intro a
  exact Ensures.pure trivial

end Takes

end Reader
end TypedMarkup
