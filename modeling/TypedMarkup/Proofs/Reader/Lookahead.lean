import TypedMarkup.Proofs.Reader.Gives

/-! # How far readers look

A reader looks at tokens in their order, and at none behind the furthest that it takes or refuses. So its reply is
told by the tokens up to that one, whatever stands behind them. There is a rule for each way to combine readers.
-/
namespace TypedMarkup
set_option autoImplicit false

/-- The same place, with the same tokens ahead up to so many from the start. -/
structure Cursor.SameUpTo (n : Nat) (c c' : Cursor) : Prop where
  index : c.index = c'.index
  last : c.last = c'.last
  rest : c.rest.take (n - c.index) = c'.rest.take (n - c.index)

namespace Cursor.SameUpTo

variable {n : Nat} {c c' : Cursor}

theorem rest_eq_nil (h : c.SameUpTo n c') (hIndex : c.index < n) (hRest : c.rest = []) : c'.rest = [] := by
  have hTake := h.rest
  obtain ⟨k, hk⟩ := Nat.exists_eq_succ_of_ne_zero (Nat.sub_ne_zero_of_lt hIndex)
  rw [hRest, hk, List.take_nil] at hTake
  cases hRest' : c'.rest with
  | nil => rfl
  | cons t rest =>
    rw [hRest'] at hTake
    cases hTake

theorem exists_cons (h : c.SameUpTo n c') (hIndex : c.index < n) {t : Located Token} {rest : List (Located Token)}
    (hRest : c.rest = t :: rest) :
    ∃ rest', c'.rest = t :: rest' ∧
      SameUpTo n ⟨c.index + 1, t.span.stop, rest⟩ ⟨c'.index + 1, t.span.stop, rest'⟩ := by
  have hTake := h.rest
  have hSucc : n - c.index = (n - (c.index + 1)) + 1 := by omega
  rw [hRest, hSucc, List.take_succ_cons] at hTake
  cases hRest' : c'.rest with
  | nil =>
    rw [hRest'] at hTake
    cases hTake
  | cons t' rest' =>
    rw [hRest', List.take_succ_cons] at hTake
    obtain ⟨rfl, hBehind⟩ := List.cons.inj hTake
    exact ⟨rest', rfl, congrArg (· + 1) h.index, rfl, hBehind⟩

theorem start_eq (h : c.SameUpTo n c') (hIndex : c.index < n) : c.start = c'.start := by
  cases hRest : c.rest with
  | nil => rw [start, start, hRest, h.rest_eq_nil hIndex hRest, h.last]
  | cons t rest =>
    obtain ⟨rest', hRest', -⟩ := h.exists_cons hIndex hRest
    rw [start, start, hRest, hRest']

end Cursor.SameUpTo

namespace Reply

variable {α : Type}

/-- Of so many tokens from the start, all that was refused is one, and all that was taken is among them. -/
structure Within (n : Nat) (r : Reply α) : Prop where
  misses : ∀ m ∈ r.misses, m.index < n
  result : ∀ a c, r.result = some (a, c) → c.index ≤ n

/-- The same refusals; and the same value in front of the same tokens up to a place, or no value. -/
inductive SameUpTo (n : Nat) : Reply α → Reply α → Prop
  | refuses (misses : List Miss) : SameUpTo n ⟨none, misses⟩ ⟨none, misses⟩
  | reads (a : α) {c c' : Cursor} (misses : List Miss) (h : c.SameUpTo n c') :
      SameUpTo n ⟨some (a, c), misses⟩ ⟨some (a, c'), misses⟩

theorem SameUpTo.exists_result {n : Nat} {r r' : Reply α} {a : α} {c : Cursor} (h : r.SameUpTo n r')
    (hResult : r.result = some (a, c)) : ∃ c', r'.result = some (a, c') ∧ c.SameUpTo n c' := by
  cases h with
  | refuses => cases hResult
  | reads _ _ hBehind =>
    cases hResult
    exact ⟨_, rfl, hBehind⟩

theorem SameUpTo.prepend {n : Nat} {r r' : Reply α} (h : r.SameUpTo n r') (misses : List Miss) :
    SameUpTo n ⟨r.result, misses ++ r.misses⟩ ⟨r'.result, misses ++ r'.misses⟩ := by
  cases h with
  | refuses _ => exact .refuses _
  | reads a _ hBehind => exact .reads a _ hBehind

end Reply

namespace Reader

variable {α β : Type}

theorem Guarded.fix_eq_approximation {step : Reader α → Reader α} (h : Guarded step) {n : Nat} {c : Cursor}
    (hn : c.rest.length ≤ n) : fix step c = approximation step (n + 1) c :=
  h.agreeBelow_approximation (Nat.succ_le_succ hn) c (Nat.lt_succ_self _)

/-- A reader that cannot go on refuses a token that it has come to, and its reply is told by the tokens that it has
come to. -/
structure Local (p : Reader α) : Prop where
  advances : Advances p
  refuses : ∀ c, p.Refuses c → ∃ m ∈ (p c).misses, c.index ≤ m.index
  reply : ∀ {n : Nat} {c c' : Cursor}, c.SameUpTo n c' → (p c).Within n → (p c).SameUpTo n (p c')

namespace Local

variable {p q : Reader α}

theorem pure (a : α) : Local (Pure.pure a : Reader α) where
  advances := Ensures.pure trivial
  refuses _ h := nomatch h
  reply h _ := .reads a [] h

/-- Where a reader began is no further than what it has come to. -/
theorem index_le (hp : Local p) {n : Nat} {c : Cursor} (h : (p c).Within n) : c.index ≤ n := by
  cases hResult : (p c).result with
  | none =>
    obtain ⟨m, hm, hStart⟩ := hp.refuses c hResult
    exact Nat.le_of_lt (Nat.lt_of_le_of_lt hStart (h.misses m hm))
  | some first =>
    obtain ⟨a, c'⟩ := first
    obtain ⟨taken, hPasses, -⟩ := hp.advances c a c' hResult
    have hStop := h.result a c' hResult
    have hStart := hPasses.index
    omega

theorem bind {f : α → Reader β} (hp : Local p) (hf : ∀ a, Local (f a)) : Local (p >>= f) where
  advances := hp.advances.bind fun a => (hf a).advances
  refuses c hRefuses := by
    change (Reader.bind p f c).result = none at hRefuses
    change ∃ m ∈ (Reader.bind p f c).misses, _
    rw [Reader.bind] at hRefuses ⊢
    cases hFirst : (p c).result with
    | none => exact hp.refuses c hFirst
    | some first =>
      obtain ⟨a, c'⟩ := first
      rw [hFirst] at hRefuses
      obtain ⟨m, hm, hStart⟩ := (hf a).refuses c' hRefuses
      obtain ⟨taken, hPasses, -⟩ := hp.advances c a c' hFirst
      have hIndex := hPasses.index
      exact ⟨m, List.mem_append_right _ hm, by omega⟩
  reply {n c c'} hSame hWithin := by
    change (Reader.bind p f c).Within n at hWithin
    change (Reader.bind p f c).SameUpTo n (Reader.bind p f c')
    rw [Reader.bind] at hWithin ⊢
    rw [Reader.bind]
    cases hFirst : (p c).result with
    | none =>
      rw [hFirst] at hWithin
      have hReply := hp.reply hSame ⟨hWithin.misses, by simp [hFirst]⟩
      generalize p c = first at hFirst hReply ⊢
      generalize p c' = first' at hReply ⊢
      cases hReply with
      | refuses misses => exact .refuses misses
      | reads => cases hFirst
    | some read =>
      obtain ⟨a, d⟩ := read
      rw [hFirst] at hWithin
      -- What is read behind the first value begins no further than where it stops or refuses.
      have hSecond : (f a d).Within n :=
        ⟨fun m hm => hWithin.misses m (List.mem_append_right _ hm), hWithin.result⟩
      have hMiddle := (hf a).index_le hSecond
      have hReply := hp.reply hSame ⟨fun m hm => hWithin.misses m (List.mem_append_left _ hm), by
        rw [hFirst]
        rintro _ _ ⟨⟩
        exact hMiddle⟩
      generalize p c = first at hFirst hReply ⊢
      generalize p c' = first' at hReply ⊢
      cases hReply with
      | refuses => cases hFirst
      | @reads _ _ d' misses hBehind =>
        cases hFirst
        exact ((hf a).reply hBehind hSecond).prepend misses

theorem orElse (hp : Local p) (hq : Local q) : Local (Reader.orElse p q) where
  advances := hp.advances.orElse hq.advances
  refuses c hRefuses := by
    rw [Refuses, orElse_result, Option.or_eq_none_iff] at hRefuses
    obtain ⟨m, hm, hStart⟩ := hp.refuses c hRefuses.1
    rw [Reader.orElse, hRefuses.1]
    exact ⟨m, List.mem_append_left _ hm, hStart⟩
  reply {n c c'} hSame hWithin := by
    rw [Reader.orElse] at hWithin ⊢
    rw [Reader.orElse]
    cases hFirst : (p c).result with
    | none =>
      rw [hFirst] at hWithin
      have hReply := hp.reply hSame
        ⟨fun m hm => hWithin.misses m (List.mem_append_left _ hm), by simp [hFirst]⟩
      have hReply' := hq.reply hSame ⟨fun m hm => hWithin.misses m (List.mem_append_right _ hm), hWithin.result⟩
      generalize p c = first at hFirst hReply ⊢
      generalize p c' = first' at hReply ⊢
      cases hReply with
      | reads => cases hFirst
      | refuses misses => exact hReply'.prepend misses
    | some read =>
      rw [hFirst] at hWithin
      have hReply := hp.reply hSame hWithin
      generalize p c = first at hFirst hReply ⊢
      generalize p c' = first' at hReply ⊢
      cases hReply with
      | refuses => cases hFirst
      | reads a misses hRest => exact .reads a misses hRest

theorem satisfy (wanted : Option Expectation) (pick : Token → Option α) : Local (Reader.satisfy wanted pick) where
  advances := (Takes.satisfy wanted pick).advances
  refuses c hRefuses := by
    refine ⟨⟨c.index, wanted⟩, ?_, Nat.le_refl _⟩
    rw [Refuses, Reader.satisfy] at hRefuses
    rw [Reader.satisfy]
    split
    · exact List.mem_singleton_self _
    · split
      case h_1 hPick => simp [*] at hRefuses
      case h_2 => exact List.mem_singleton_self _
  reply {n c c'} hSame hWithin := by
    rw [Reader.satisfy] at hWithin ⊢
    rw [Reader.satisfy]
    cases hRest : c.rest with
    | nil =>
      rw [hRest] at hWithin
      have hIndex : c.index < n := hWithin.misses ⟨c.index, wanted⟩ (List.mem_singleton_self _)
      rw [hSame.rest_eq_nil hIndex hRest, hSame.index]
      exact .refuses _
    | cons t rest =>
      rw [hRest] at hWithin
      cases hPick : pick t.value with
      | none =>
        simp only [hPick] at hWithin
        have hIndex : c.index < n := hWithin.misses ⟨c.index, wanted⟩ (List.mem_singleton_self _)
        obtain ⟨rest', hRest', -⟩ := hSame.exists_cons hIndex hRest
        simp only [hRest', hPick, hSame.index]
        exact .refuses _
      | some a =>
        simp only [hPick] at hWithin
        have hIndex : c.index + 1 ≤ n := hWithin.result a _ rfl
        obtain ⟨rest', hRest', hBehind⟩ := hSame.exists_cons hIndex hRest
        simp only [hRest', hPick]
        exact .reads a [] hBehind

theorem spanning {p : Reader (Span → α)} (hp : Local p) (hTakes : Takes (Reader.spanning p)) :
    Local (Reader.spanning p) where
  advances := hTakes.advances
  refuses c hRefuses := by
    apply hp.refuses c
    rw [Refuses, Reader.spanning] at hRefuses
    exact Option.map_eq_none_iff.mp hRefuses
  reply {n c c'} hSame hWithin := by
    rw [Reader.spanning] at hWithin ⊢
    rw [Reader.spanning]
    have hInner : (p c).Within n := by
      refine ⟨hWithin.misses, ?_⟩
      intro f d hResult
      apply hWithin.result (f ⟨c.start, d.last⟩) d
      rw [hResult]
      rfl
    have hReply := hp.reply hSame hInner
    have hTaken : ∀ f d, (p c).result = some (f, d) → ∃ taken, c.Passes taken d ∧ taken ≠ [] :=
      fun f d hRead => hTakes c _ d (spanning_eq_some_iff.mpr ⟨f, hRead, rfl⟩)
    generalize p c = reply at hInner hReply hTaken ⊢
    generalize p c' = reply' at hReply ⊢
    cases hReply with
    | refuses misses => exact .refuses misses
    | @reads f d d' misses hRest =>
      -- A token was taken, so that the span begins with one of those that were come to.
      obtain ⟨taken, hPasses, hNonempty⟩ := hTaken f d rfl
      have hPos := List.length_pos_iff.mpr hNonempty
      have hStop : d.index ≤ n := hInner.result f d rfl
      have hIndex := hPasses.index
      have hStart : c.start = c'.start := hSame.start_eq (by omega)
      have hSpan : (⟨c.start, d.last⟩ : Span) = ⟨c'.start, d'.last⟩ := by rw [hStart, hRest.last]
      simp only [Option.map_some, hSpan]
      exact .reads _ misses hRest

theorem located (hp : Local p) (hTakes : Takes p) : Local (Reader.located p) :=
  (hp.bind fun _ => pure _).spanning hTakes.located

theorem fix {step : Reader α → Reader α} {Q : List (Located Token) → α → Prop} (hGuarded : Guarded step)
    (hEnsures : ∀ p, Ensures p Q → Ensures (step p) Q) (h : ∀ p, Ensures p Q → Local p → Local (step p)) :
    Local (Reader.fix step) := by
  have hApproximation : ∀ n, Ensures (approximation step n) Q ∧ Local (approximation step n) := by
    intro n
    induction n with
    | zero =>
      refine ⟨nofun, ?_⟩
      exact {
        advances := nofun
        refuses := fun c _ => ⟨⟨c.index, none⟩, List.mem_singleton_self _, Nat.le_refl _⟩
        reply := fun {n c c'} hSame _ => by
          have hIndex := hSame.index
          change Reply.SameUpTo n ⟨none, [⟨c.index, none⟩]⟩ ⟨none, [⟨c'.index, none⟩]⟩
          rw [hIndex]
          exact .refuses _ }
    | succ n ih => exact ⟨hEnsures _ ih.1, h _ ih.1 ih.2⟩
  exact {
    advances := fun c => (hApproximation (c.rest.length + 1)).2.advances c
    refuses := fun c => (hApproximation (c.rest.length + 1)).2.refuses c
    reply := fun {n c c'} hSame hWithin => by
      -- Both allow as many references as the longer of the two rests needs.
      rw [hGuarded.fix_eq_approximation (Nat.le_max_left c.rest.length c'.rest.length)] at hWithin ⊢
      rw [hGuarded.fix_eq_approximation (Nat.le_max_right c.rest.length c'.rest.length)]
      exact (hApproximation _).2.reply hSame hWithin }

theorem many (hp : Local p) (hTakes : Takes p) : Local (Reader.many p) := by
  have hGuarded := guarded_many hTakes
  apply fix hGuarded hGuarded.advances
  intro more _ hMore
  exact (hp.bind fun a => hMore.bind fun as => pure _).orElse (pure [])

theorem maybe (hp : Local p) : Local (Reader.maybe p) := (hp.bind fun _ => pure _).orElse (pure none)

theorem mark (m : Mark) : Local (Reader.mark m) := satisfy _ _

theorem keyword (k : Keyword) : Local (Reader.keyword k) := satisfy _ _

theorem name : Local Reader.name := satisfy _ _

theorem between (before after : Mark) (hp : Local p) : Local (Reader.between before after p) :=
  (mark before).bind fun _ => hp.bind fun a => (mark after).bind fun _ => pure a

theorem separated (m : Mark) (hp : Local p) : Local (Reader.separated m p) := by
  have hOther : Local (do Reader.mark m; p) := (mark m).bind fun _ => hp
  exact hp.bind fun _ => (hOther.many ((Takes.mark m).bind fun _ => hp.advances)).bind fun _ => pure _

end Local
end Reader
end TypedMarkup
