import TypedMarkup.Proofs.Reader.Ensures

/-! # Readers that refer to themselves

A reader that refers to itself only behind a token satisfies the equation it is defined by: the number of
references allowed is never used up. In particular many values in a row are one value and again many.
-/
namespace TypedMarkup.Reader
set_option autoImplicit false

variable {α β : Type}

theorem Advances.length_le {p : Reader α} (hp : Advances p) {c c' : Cursor} {a : α}
    (h : (p c).result = some (a, c')) : c'.rest.length ≤ c.rest.length := by
  obtain ⟨taken, hPasses, -⟩ := hp c a c' h
  rw [hPasses.rest, List.length_append]
  omega

theorem Takes.length_lt {p : Reader α} (hp : Takes p) {c c' : Cursor} {a : α}
    (h : (p c).result = some (a, c')) : c'.rest.length < c.rest.length := by
  obtain ⟨taken, hPasses, hTaken⟩ := hp c a c' h
  have hPos := List.length_pos_iff.mpr hTaken
  rw [hPasses.rest, List.length_append]
  omega

/-- Two readers reply alike wherever fewer than so many tokens are left. -/
def AgreeBelow (n : Nat) (p q : Reader α) : Prop := ∀ c, c.rest.length < n → p c = q c

namespace AgreeBelow

variable {n : Nat} {p q : Reader α} {f g : α → Reader β}

theorem refl (n : Nat) (p : Reader α) : AgreeBelow n p p := fun _ _ => rfl

theorem bind_of_lt {c : Cursor} (hpq : p c = q c)
    (hf : ∀ a c', (p c).result = some (a, c') → f a c' = g a c') : (p >>= f) c = (q >>= g) c := by
  change Reader.bind p f c = Reader.bind q g c
  rw [Reader.bind, Reader.bind, ← hpq]
  cases h : (p c).result with
  | none => rfl
  | some first =>
    obtain ⟨a, c'⟩ := first
    dsimp only
    rw [hf a c' h]

theorem bind (hp : Advances p) (hpq : AgreeBelow n p q) (hf : ∀ a, AgreeBelow n (f a) (g a)) :
    AgreeBelow n (p >>= f) (q >>= g) := by
  intro c hc
  apply bind_of_lt (hpq c hc)
  intro a c' h
  exact hf a c' (Nat.lt_of_le_of_lt (hp.length_le h) hc)

/-- Behind a token there is one token less left. -/
theorem behind (hp : Takes p) (hf : ∀ a, AgreeBelow n (f a) (g a)) : AgreeBelow (n + 1) (p >>= f) (p >>= g) := by
  intro c hc
  apply bind_of_lt rfl
  intro a c' h
  apply hf a c'
  have hLess := hp.length_lt h
  omega

theorem orElse {p' q' : Reader α} (h : AgreeBelow n p q) (h' : AgreeBelow n p' q') :
    AgreeBelow n (Reader.orElse p p') (Reader.orElse q q') := by
  intro c hc
  rw [Reader.orElse, Reader.orElse, h c hc, h' c hc]

theorem spanning {p q : Reader (Span → α)} (h : AgreeBelow n p q) :
    AgreeBelow n (Reader.spanning p) (Reader.spanning q) := by
  intro c hc
  rw [Reader.spanning, Reader.spanning, h c hc]

theorem bind_left (h : AgreeBelow n p q) (f : α → Reader β) : AgreeBelow n (p >>= f) (q >>= f) :=
  fun c hc => bind_of_lt (h c hc) fun _ _ _ => rfl

theorem maybe (h : AgreeBelow n p q) : AgreeBelow n (Reader.maybe p) (Reader.maybe q) :=
  (h.bind_left _).orElse (refl n _)

theorem many (hp : Advances p) (h : AgreeBelow n p q) : AgreeBelow n (Reader.many p) (Reader.many q) := by
  intro c hc
  rw [Reader.many, Reader.many, fix, fix]
  -- However often the two refer to themselves, each time they agree.
  generalize c.rest.length + 1 = k
  revert c
  change AgreeBelow n _ _
  induction k with
  | zero => exact refl n _
  | succ k ih => exact (h.bind hp fun a => ih.bind_left _).orElse (refl n _)

theorem between (before after : Mark) (h : AgreeBelow n p q) :
    AgreeBelow n (Reader.between before after p) (Reader.between before after q) :=
  (refl n _).bind (Takes.mark before).advances fun _ => h.bind_left _

theorem separated (m : Mark) (hp : Advances p) (h : AgreeBelow n p q) :
    AgreeBelow n (Reader.separated m p) (Reader.separated m q) := by
  apply h.bind hp
  intro first
  apply bind_left
  apply many ((Takes.mark m).advances.bind fun _ => hp)
  exact (refl n _).bind (Takes.mark m).advances fun _ => h

end AgreeBelow

/-- A step that refers to itself only behind a token: what it replies depends on shorter rests alone. -/
structure Guarded (step : Reader α → Reader α) : Prop where
  advances : ∀ p, Advances p → Advances (step p)
  agree : ∀ n p q, Advances p → AgreeBelow n p q → AgreeBelow (n + 1) (step p) (step q)

namespace Guarded

variable {step : Reader α → Reader α}

theorem advances_approximation (h : Guarded step) (n : Nat) : Advances (approximation step n) := by
  induction n with
  | zero =>
    intro c a c' hRead
    cases hRead
  | succ n ih => exact h.advances _ ih

theorem agreeBelow_approximation (h : Guarded step) {n m : Nat} (hnm : n ≤ m) :
    AgreeBelow n (approximation step n) (approximation step m) := by
  induction n generalizing m with
  | zero => exact fun c hc => absurd hc (Nat.not_lt_zero _)
  | succ n ih =>
    cases m with
    | zero => omega
    | succ m => exact h.agree n _ _ (h.advances_approximation n) (ih (by omega))

theorem fix_eq (h : Guarded step) : fix step = step (fix step) := by
  funext c
  have hFix : AgreeBelow c.rest.length (approximation step c.rest.length) (fix step) := by
    intro c' hc'
    exact (h.agreeBelow_approximation hc' c' (Nat.lt_succ_self _)).symm
  exact h.agree _ _ _ (h.advances_approximation _) hFix c (Nat.lt_succ_self _)

end Guarded

theorem guarded_many {p : Reader α} (hp : Takes p) :
    Guarded fun more => orElse
      (do
        let a ← p
        return a :: (← more))
      (Reader.pure []) where
  advances more hMore := by
    apply Ensures.orElse
    · exact hp.advances.bind fun a => hMore.bind fun as => Ensures.pure trivial
    · exact Ensures.pure trivial
  agree n more more' _ h := by
    apply AgreeBelow.orElse
    · exact AgreeBelow.behind hp fun a => h.bind_left _
    · exact AgreeBelow.refl _ _

theorem many_eq {p : Reader α} (hp : Takes p) :
    many p = orElse
      (do
        let a ← p
        return a :: (← many p))
      (Reader.pure []) := (guarded_many hp).fix_eq
end TypedMarkup.Reader
