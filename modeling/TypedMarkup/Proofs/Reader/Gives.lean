import TypedMarkup.Proofs.Reader.Recursion
import TypedMarkup.Proofs.Token.Placement

/-! # What readers give and refuse

A reader gives a value at a cursor and goes on from another, or it refuses the cursor. The rules follow a
reader along tokens that are known. Where tokens may be left out or repeated, what stands behind them
decides: a row ends where its reader refuses.
-/
namespace TypedMarkup
set_option autoImplicit false
open Placement

namespace Cursor

def next? (c : Cursor) : Option Token := c.rest.head?.map Located.value

variable {c c' : Cursor} {t : Located Token} {taken taken' : List (Located Token)}

theorem Passes.exists_append (h : c.Passes (taken ++ taken') c') :
    ∃ c₁, c.Passes taken c₁ ∧ c₁.Passes taken' c' := by
  refine ⟨⟨c.index + taken.length, (taken.getLast?.map fun t => t.span.stop).getD c.last, taken' ++ c'.rest⟩,
    ⟨?_, rfl, rfl⟩, ⟨rfl, ?_, ?_⟩⟩
  · rw [h.rest, List.append_assoc]
  · rw [h.index, List.length_append, Nat.add_assoc]
  · rw [h.last, List.getLast?_append]
    cases taken'.getLast? <;> rfl

theorem Passes.exists_cons (h : c.Passes (t :: taken) c') : ∃ c₁, c.Passes [t] c₁ ∧ c₁.Passes taken c' :=
  @Passes.exists_append c c' [t] taken h

theorem exists_passes_of_rest {rest : List (Located Token)} (h : c.rest = taken ++ rest) :
    ∃ c', c.Passes taken c' ∧ c'.rest = rest :=
  ⟨⟨c.index + taken.length, (taken.getLast?.map fun t => t.span.stop).getD c.last, rest⟩, ⟨h, rfl, rfl⟩, rfl⟩

theorem Passes.eq_of_nil (h : c.Passes [] c') : c' = c := by
  obtain ⟨hRest, hIndex, hLast⟩ := h
  obtain ⟨index, last, rest⟩ := c'
  obtain rfl : c.rest = rest := hRest
  obtain rfl : index = c.index := hIndex
  obtain rfl : last = c.last := hLast
  rfl

theorem Passes.next?_eq (h : c.Passes (t :: taken) c') : c.next? = some t.value := by
  rw [next?, h.rest]
  rfl

end Cursor

namespace Reader

variable {α β : Type}

/-- The reader reads the value at the first cursor and goes on from the second. -/
def Gives (p : Reader α) (a : α) (c c' : Cursor) : Prop := (p c).result = some (a, c')

def Refuses (p : Reader α) (c : Cursor) : Prop := (p c).result = none

variable {p q : Reader α} {f : α → Reader β} {a : α} {b : β} {c c' c'' : Cursor} {taken : List (Located Token)}

theorem Refuses.bind (hp : p.Refuses c) (f : α → Reader β) : (p >>= f).Refuses c := by
  change (Reader.bind p f c).result = none
  rw [Reader.bind, hp]

theorem Refuses.orElse (hp : p.Refuses c) (hq : q.Refuses c) : (Reader.orElse p q).Refuses c := by
  rw [Refuses, orElse_result, hp, hq]
  rfl

theorem Refuses.spanning {p : Reader (Span → α)} (hp : p.Refuses c) : (Reader.spanning p).Refuses c := by
  rw [Refuses, Reader.spanning, hp]
  rfl

theorem Refuses.located (hp : p.Refuses c) : (Reader.located p).Refuses c := Refuses.spanning (hp.bind _)

theorem Refuses.satisfy {wanted : Option Expectation} {pick : Token → Option α}
    (h : ∀ t, c.next? = some t → pick t = none) : (Reader.satisfy wanted pick).Refuses c := by
  rw [Refuses, Reader.satisfy]
  cases hRest : c.rest with
  | nil => rfl
  | cons t rest =>
    have hPick : pick t.value = none := by
      apply h
      rw [Cursor.next?, hRest]
      rfl
    dsimp only
    rw [hPick]

theorem Refuses.exactly {wanted : Option Expectation} {t : Token} (h : c.next? ≠ some t) :
    (Reader.satisfy wanted fun t' => if t' = t then some () else none).Refuses c := by
  apply satisfy
  intro t' ht'
  rw [if_neg]
  rintro rfl
  exact h ht'

theorem Refuses.mark {m : Mark} (h : c.next? ≠ some (.mark m)) : (Reader.mark m).Refuses c := exactly h

theorem Refuses.keyword {k : Keyword} (h : c.next? ≠ some (.keyword k)) : (Reader.keyword k).Refuses c := exactly h

theorem Refuses.name (h : ∀ n, c.next? ≠ some (.identifier n)) : Reader.name.Refuses c := by
  apply satisfy
  intro t ht
  split
  case h_1 n => exact absurd ht (h n)
  case h_2 => rfl

namespace Gives

theorem pure (a : α) (c : Cursor) : (Pure.pure a : Reader α).Gives a c c := rfl

theorem bind (hp : p.Gives a c c') (hf : (f a).Gives b c' c'') : (p >>= f).Gives b c c'' :=
  bind_eq_some_iff.mpr ⟨a, c', hp, hf⟩

/-- A reader that goes on after a value may refuse what comes then. -/
theorem bind_refuses (hp : p.Gives a c c') (hf : (f a).Refuses c') : (p >>= f).Refuses c := by
  change (Reader.bind p f c).result = none
  rw [Reader.bind, hp]
  exact hf

theorem map (hp : p.Gives a c c') (f : α → β) : (do return f (← p) : Reader β).Gives (f a) c c' :=
  hp.bind (pure (f a) c')

theorem orElse (hp : p.Gives a c c') (q : Reader α) : (Reader.orElse p q).Gives a c c' := by
  rw [Gives, orElse_result, hp]
  rfl

theorem orElse_of_refuses (hp : p.Refuses c) (hq : q.Gives a c c') : (Reader.orElse p q).Gives a c c' := by
  rw [Gives, orElse_result, hp, hq]
  rfl

theorem satisfy {wanted : Option Expectation} {pick : Token → Option α} {t : Located Token}
    (h : c.Passes [t] c') (hPick : pick t.value = some a) : (Reader.satisfy wanted pick).Gives a c c' := by
  refine satisfy_eq_some_iff.mpr ⟨t, c'.rest, h.rest, hPick, ?_⟩
  rw [show c.index + 1 = c'.index from h.index.symm, show t.span.stop = c'.last from h.last.symm]

theorem exactly {wanted : Option Expectation} {t : Token} {s : Span} (h : c.Passes [⟨t, s⟩] c') :
    (Reader.satisfy wanted fun t' => if t' = t then some () else none).Gives () c c' :=
  satisfy h (if_pos rfl)

theorem mark {m : Mark} {s : Span} (h : c.Passes [⟨.mark m, s⟩] c') : (Reader.mark m).Gives () c c' := exactly h

theorem keyword {k : Keyword} {s : Span} (h : c.Passes [⟨.keyword k, s⟩] c') :
    (Reader.keyword k).Gives () c c' := exactly h

theorem name {n : String} {s : Span} (h : c.Passes [⟨.identifier n, s⟩] c') : Reader.name.Gives n c c' :=
  satisfy h rfl

theorem spanning {p : Reader (Span → α)} {g : Span → α} (hp : p.Gives g c c') (h : c.Passes taken c')
    (hTaken : taken ≠ []) : (Reader.spanning p).Gives (g (Span.ofTokens taken)) c c' :=
  spanning_eq_some_iff.mpr ⟨g, hp, by rw [h.span_eq hTaken]⟩

theorem located (hp : p.Gives a c c') (h : c.Passes taken c') (hTaken : taken ≠ []) :
    (Reader.located p).Gives ⟨a, Span.ofTokens taken⟩ c c' :=
  spanning (hp.bind (pure _ c')) h hTaken

theorem maybe (hp : p.Gives a c c') : (Reader.maybe p).Gives (some a) c c' := (hp.map some).orElse _

theorem maybe_of_refuses (hp : p.Refuses c) : (Reader.maybe p).Gives none c c :=
  orElse_of_refuses (hp.bind _) rfl

theorem between {before after : Mark} {s s' : Span} {c₁ c₂ : Cursor} (hBefore : c.Passes [⟨.mark before, s⟩] c₁)
    (hp : p.Gives a c₁ c₂) (hAfter : c₂.Passes [⟨.mark after, s'⟩] c') :
    (Reader.between before after p).Gives a c c' :=
  (mark hBefore).bind (hp.bind ((mark hAfter).bind (pure a c')))

theorem many_cons (hTakes : Takes p) {as : List α} (hp : p.Gives a c c') (hRest : (many p).Gives as c' c'') :
    (many p).Gives (a :: as) c c'' := by
  rw [many_eq hTakes]
  exact (hp.bind (hRest.map _)).orElse _

theorem many_nil (hTakes : Takes p) (hp : p.Refuses c) : (many p).Gives [] c c := by
  rw [many_eq hTakes]
  exact orElse_of_refuses (hp.bind _) rfl

/-- A row of values is read whole if each of them is read in front of those behind it. -/
theorem many {P : α → List (Located Token) → Prop} (hTakes : Takes p) {as : List α} (h : InRow P as taken)
    (hPasses : c.Passes taken c') (hEnd : p.Refuses c')
    (hp : ∀ a as' own after c₁ c₂, a :: as' <:+ as → P a own → InRow P as' after → c₁.Passes own c₂ →
      c₂.Passes after c' → p.Gives a c₁ c₂) :
    (Reader.many p).Gives as c c' := by
  induction as generalizing c taken with
  | nil =>
    obtain rfl : taken = [] := h
    obtain rfl := hPasses.eq_of_nil
    exact many_nil hTakes hEnd
  | cons a as ih =>
    obtain ⟨own, after, hHead, hRest, rfl⟩ := h
    obtain ⟨c₁, hOwn, hAfter⟩ := hPasses.exists_append
    apply many_cons hTakes (hp a as own after c c₁ List.suffix_rfl hHead hRest hOwn hAfter)
    apply ih hRest hAfter
    intro a' as' own' after' c₁ c₂ hSuffix
    exact hp a' as' own' after' c₁ c₂ (hSuffix.trans (List.suffix_cons a as))

theorem separated_one {m : Mark} (hTakes : Takes p) (hp : p.Gives a c c')
    (hEnd : (do Reader.mark m; p : Reader α).Refuses c') : (Reader.separated m p).Gives [a] c c' := by
  have hMore : Takes (do Reader.mark m; p) := (Takes.mark m).bind fun _ => hTakes.advances
  exact hp.bind ((many_nil hMore hEnd).map _)

/-- A series ends where no mark with a value behind it follows. Each value is read in front of the mark or
of the end. -/
theorem separated {P : α → List (Located Token) → Prop} {m : Mark} (hTakes : Takes p) {as : List α}
    (h : InSeries m P as taken) (hPasses : c.Passes taken c')
    (hEnd : (do Reader.mark m; p : Reader α).Refuses c')
    (hp : ∀ a ∈ as, ∀ own c₁ c₂, P a own → c₁.Passes own c₂ → (c₂.next? = some (.mark m) ∨ c₂ = c') →
      p.Gives a c₁ c₂) :
    (Reader.separated m p).Gives as c c' := by
  have hMore : Takes (do Reader.mark m; p) := (Takes.mark m).bind fun _ => hTakes.advances
  cases as with
  | nil => cases h
  | cons first others =>
    -- The first value has no mark before it, so that the induction is on the values behind it.
    suffices hParts : ∃ c₁, p.Gives first c c₁ ∧ (Reader.many (do Reader.mark m; p)).Gives others c₁ c' by
      obtain ⟨c₁, hFirst, hOthers⟩ := hParts
      exact hFirst.bind (hOthers.bind (pure _ c'))
    induction others generalizing first c taken with
    | nil =>
      exact ⟨c', hp first List.mem_cons_self taken c c' h hPasses (.inr rfl), many_nil hMore hEnd⟩
    | cons second others ih =>
      obtain ⟨own, s, after, hHead, hRest, rfl⟩ := h
      obtain ⟨c₁, hOwn, hBehind⟩ := hPasses.exists_append
      obtain ⟨c₂, hMark, hAfter⟩ := hBehind.exists_cons
      obtain ⟨c₃, hSecond, hOthers⟩ := ih hAfter second hRest fun a ha => hp a (List.mem_cons_of_mem _ ha)
      refine ⟨c₁, hp first List.mem_cons_self own c c₁ hHead hOwn (.inl hMark.next?_eq), ?_⟩
      exact many_cons hMore ((mark hMark).bind hSecond) hOthers

end Gives
end Reader
end TypedMarkup
