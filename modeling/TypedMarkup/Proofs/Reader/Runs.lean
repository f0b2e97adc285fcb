import TypedMarkup.Proofs.Reader.Gives
import TypedMarkup.Proofs.Reader.Reads

/-! # Readings one behind another

A row of values is read one after the other, up to where no further value can be read. So each token that is refused
on the way is refused by the reader of a single value, behind some values that it has read.
-/
namespace TypedMarkup.Reader
set_option autoImplicit false
open Spelling

variable {α β : Type} {p q : Reader α} {a : α} {as : List α} {c c' c'' : Cursor}

theorem Refuses.misses_bind (h : p.Refuses c) (f : α → Reader β) : ((p >>= f) c).misses = (p c).misses := by
  change (Reader.bind p f c).misses = _
  rw [Reader.bind, h]

theorem Gives.misses_bind (h : p.Gives a c c') (f : α → Reader β) :
    ((p >>= f) c).misses = (p c).misses ++ (f a c').misses := by
  change (Reader.bind p f c).misses = _
  rw [Reader.bind, h]

theorem Refuses.misses_orElse (h : p.Refuses c) (q : Reader α) :
    (Reader.orElse p q c).misses = (p c).misses ++ (q c).misses := by
  rw [Reader.orElse, h]

theorem Gives.misses_orElse (h : p.Gives a c c') (q : Reader α) : (Reader.orElse p q c).misses = (p c).misses := by
  rw [Reader.orElse, h]

theorem Refuses.misses_many (hTakes : Takes p) (h : p.Refuses c) : (Reader.many p c).misses = (p c).misses := by
  rw [many_eq hTakes, (h.bind _).misses_orElse, h.misses_bind]
  exact List.append_nil _

theorem Gives.misses_many (hTakes : Takes p) (h : p.Gives a c c') (hRest : (Reader.many p).Gives as c' c'') :
    (Reader.many p c).misses = (p c).misses ++ (Reader.many p c').misses := by
  rw [show Reader.many p c = _ from congrFun (many_eq hTakes) c, (h.bind (hRest.map (a :: ·))).misses_orElse,
    h.misses_bind, hRest.misses_bind]
  exact congrArg _ (List.append_nil _)

/-- The reader reads one value after the other, from the first cursor to the second. -/
inductive Runs (p : Reader α) : List α → Cursor → Cursor → Prop
  | nil (c : Cursor) : Runs p [] c c
  | cons {a : α} {as : List α} {c c' c'' : Cursor} (head : p.Gives a c c') (rest : Runs p as c' c'') :
      Runs p (a :: as) c c''

theorem Runs.reads {S : α → List Token → Prop} (hp : Reads p S) (h : Runs p as c c') :
    ∃ taken, c.Passes taken c' ∧ Row S as (taken.map Located.value) := by
  induction h with
  | nil c => exact ⟨[], .refl c, .nil⟩
  | cons head rest ih =>
    obtain ⟨taken, hPasses, hS⟩ := hp _ _ _ head
    obtain ⟨taken', hPasses', hRow⟩ := ih
    refine ⟨taken ++ taken', hPasses.trans hPasses', ?_⟩
    rw [List.map_append]
    exact .cons hS hRow

theorem many_runs (hTakes : Takes p) (c : Cursor) :
    ∃ as c', Runs p as c c' ∧ p.Refuses c' ∧ (many p).Gives as c c' ∧
      ∀ m ∈ (many p c).misses, ∃ as₁ c₁, Runs p as₁ c c₁ ∧ m ∈ (p c₁).misses := by
  induction hLength : c.rest.length using Nat.strongRecOn generalizing c with
  | ind n ih =>
    cases hRead : (p c).result with
    | none =>
      refine ⟨[], c, .nil c, hRead, Gives.many_nil hTakes hRead, ?_⟩
      rw [Refuses.misses_many hTakes hRead]
      intro m hm
      exact ⟨[], c, .nil c, hm⟩
    | some first =>
      obtain ⟨a, c₁⟩ := first
      obtain ⟨as, c', hRuns, hEnd, hGives, hMisses⟩ := ih _ (hLength ▸ hTakes.length_lt hRead) c₁ rfl
      refine ⟨a :: as, c', .cons hRead hRuns, hEnd, Gives.many_cons hTakes hRead hGives, ?_⟩
      rw [Gives.misses_many hTakes hRead hGives]
      intro m hm
      rcases List.mem_append.mp hm with hm | hm
      · exact ⟨[], c, .nil c, hm⟩
      · obtain ⟨as₁, c₂, hRuns₁, hMiss⟩ := hMisses m hm
        exact ⟨a :: as₁, c₂, .cons hRead hRuns₁, hMiss⟩

end TypedMarkup.Reader
