import TypedMarkup.Proofs.Document.Placement
import TypedMarkup.Proofs.Document.Reading
import TypedMarkup.Proofs.Reader.Gives

/-! # Reading types

Every spelling of a type is read as that type where the type ends: where no array suffix follows and, behind
a name alone, no type arguments that can be read to the end.
-/
namespace TypedMarkup
set_option autoImplicit false
open Reader Placement

theorem TypeExpr.Spelled.exists_identifier {t : TypeExpr} :
    ∀ {ts : List Token}, t.Spelled ts → ∃ n rest, ts = .identifier n :: rest := by
  induction t using TypeExpr.ind with
  | h head args ih =>
    intro ts h
    cases h with
    | named => exact ⟨head, [], rfl⟩
    | applied _ => exact ⟨head, _, rfl⟩
    | array hElement =>
      obtain ⟨n, rest, rfl⟩ := ih _ List.mem_cons_self hElement
      exact ⟨n, _, rfl⟩

namespace Grammar

def typeArgs : Reader (List TypeExpr) := between .less .greater (separated .comma typeExpr)

def suffix : Reader Unit := do
  mark .bracketOpen
  mark .bracketClose

theorem takes_typeArgs : Takes typeArgs := by
  apply (Takes.mark .less).bind
  intro _
  apply (Advances.separated .comma takes_typeExpr.advances).bind
  intro args
  apply (Takes.mark .greater).advances.bind
  intro _
  exact Ensures.pure trivial

theorem takes_suffix : Takes suffix := (Takes.mark .bracketOpen).bind fun _ => (Takes.mark .bracketClose).advances

theorem guarded_typeExpr :
    Guarded fun typeExpr : Reader TypeExpr => do
      let head ← name
      let args ← maybe (between .less .greater (separated .comma typeExpr))
      let suffixes ← many suffix
      return suffixes.foldl (fun t _ => t.array) (.app head (args.getD [])) where
  advances p hp := by
    apply Takes.name.advances.bind
    intro head
    apply ((hp.separated .comma).between .less .greater).maybe.bind
    intro args
    apply takes_suffix.advances.many.bind
    intro suffixes
    exact Ensures.pure trivial
  agree n p q hp h := by
    apply AgreeBelow.behind Takes.name
    intro head
    apply AgreeBelow.bind_left
    exact ((h.separated .comma hp).between .less .greater).maybe

theorem typeExpr_eq :
    typeExpr = do
      let head ← name
      let args ← maybe typeArgs
      let suffixes ← many suffix
      return suffixes.foldl (fun t _ => t.array) (.app head (args.getD [])) := guarded_typeExpr.fix_eq

theorem refuses_typeArgs {c : Cursor} (h : c.next? ≠ some (.mark .less)) : typeArgs.Refuses c :=
  (Refuses.mark h).bind _

theorem refuses_suffix {c : Cursor} (h : c.next? ≠ some (.mark .bracketOpen)) : suffix.Refuses c :=
  (Refuses.mark h).bind _

/-- Nothing at the cursor goes on with the type. -/
structure TypeEnds (t : TypeExpr) (c : Cursor) : Prop where
  suffix : c.next? ≠ some (.mark .bracketOpen)
  args : t.isSimple = true → typeArgs.Refuses c

theorem TypeEnds.of_next? {t : TypeExpr} {c : Cursor} (hSuffix : c.next? ≠ some (.mark .bracketOpen))
    (hArgs : c.next? ≠ some (.mark .less)) : TypeEnds t c :=
  ⟨hSuffix, fun _ => refuses_typeArgs hArgs⟩

/-- Behind an argument is a comma or a closing angle bracket, and neither goes on with a type. -/
theorem gives_separated_typeExpr {args : List TypeExpr} {ts : List (Located Token)} {c c' : Cursor}
    (hArgs : InSeries .comma (fun a own => a.Spelled (own.map Located.value)) args ts) (hPasses : c.Passes ts c')
    (hNext : c'.next? = some (.mark .greater))
    (hEach : ∀ a ∈ args, ∀ own c₁ c₂, a.Spelled (own.map Located.value) → c₁.Passes own c₂ → TypeEnds a c₂ →
      typeExpr.Gives a c₁ c₂) : (separated .comma typeExpr).Gives args c c' := by
  apply Gives.separated takes_typeExpr hArgs hPasses
  · apply (Refuses.mark _).bind
    rw [hNext]
    simp
  · intro a ha own c₁ c₂ hSpelled hOwn hBehind
    have hEither : c₂.next? = some (.mark .comma) ∨ c₂.next? = some (.mark .greater) := by
      rcases hBehind with hComma | rfl
      · exact .inl hComma
      · exact .inr hNext
    apply hEach a ha own c₁ c₂ hSpelled hOwn
    apply TypeEnds.of_next? <;> rcases hEither with h | h <;> simp [h]

/-- The suffixes behind a spelling of a type belong to the type read. -/
theorem gives_typeExpr_suffixes (t : TypeExpr) :
    ∀ {ts : List (Located Token)} {c c₀ c' : Cursor} {suffixes : List Unit}, t.Spelled (ts.map Located.value) →
      c.Passes ts c₀ → (t.isSimple = true → typeArgs.Refuses c₀) → (many suffix).Gives suffixes c₀ c' →
      typeExpr.Gives (suffixes.foldl (fun t _ => t.array) t) c c' := by
  induction t using TypeExpr.ind with
  | h head args ih =>
    intro ts c c₀ c' suffixes h hPasses hSimple hSuffixes
    generalize hValues : ts.map Located.value = values at h
    cases h with
    | named =>
      obtain ⟨s, rfl⟩ := map_value_eq_singleton_iff.mp hValues
      rw [typeExpr_eq]
      apply (Gives.name hPasses).bind
      apply (Gives.maybe_of_refuses (hSimple rfl)).bind
      exact hSuffixes.map _
    | applied hArgs =>
      obtain ⟨sHead, _, rfl, h₁⟩ := map_value_eq_cons_iff.mp hValues
      obtain ⟨sLess, _, rfl, h₂⟩ := map_value_eq_cons_iff.mp h₁
      obtain ⟨own, _, rfl, rfl, h₃⟩ := List.map_eq_append_iff.mp h₂
      obtain ⟨sGreater, rfl⟩ := map_value_eq_singleton_iff.mp h₃
      obtain ⟨c₁, hHead, hPasses₁⟩ := hPasses.exists_cons
      obtain ⟨c₂, hLess, hPasses₂⟩ := hPasses₁.exists_cons
      obtain ⟨c₃, hOwn, hGreater⟩ := hPasses₂.exists_append
      have hList : (separated .comma typeExpr).Gives args c₂ c₃ := by
        apply gives_separated_typeExpr (InSeries.of_separated hArgs) hOwn hGreater.next?_eq
        intro a ha own' c₄ c₅ hSpelled hOwn' hEnds
        exact ih a ha hSpelled hOwn' hEnds.args (Gives.many_nil takes_suffix (refuses_suffix hEnds.suffix))
      rw [typeExpr_eq]
      apply (Gives.name hHead).bind
      apply (Gives.between hLess hList hGreater).maybe.bind
      exact hSuffixes.map _
    | array hElement =>
      -- One suffix more is read behind the element.
      obtain ⟨own, _, rfl, rfl, h₁⟩ := List.map_eq_append_iff.mp hValues
      obtain ⟨sOpen, _, rfl, h₂⟩ := map_value_eq_cons_iff.mp h₁
      obtain ⟨sClose, rfl⟩ := map_value_eq_singleton_iff.mp h₂
      obtain ⟨c₁, hOwn, hPasses₁⟩ := hPasses.exists_append
      obtain ⟨c₂, hOpen, hClose⟩ := hPasses₁.exists_cons
      have hMore : (many suffix).Gives (() :: suffixes) c₁ c' :=
        Gives.many_cons takes_suffix ((Gives.mark hOpen).bind (Gives.mark hClose)) hSuffixes
      refine ih _ List.mem_cons_self hElement hOwn ?_ hMore
      intro _
      apply refuses_typeArgs
      rw [hOpen.next?_eq]
      simp

section Types

variable {ts : List (Located Token)} {c c' : Cursor}

theorem gives_typeExpr {t : TypeExpr} (h : t.Spelled (ts.map Located.value)) (hPasses : c.Passes ts c')
    (hEnds : TypeEnds t c') : typeExpr.Gives t c c' :=
  gives_typeExpr_suffixes t h hPasses hEnds.args (Gives.many_nil takes_suffix (refuses_suffix hEnds.suffix))

theorem gives_located {α : Type} {S : α → List Token → Prop} {p : Reader α} {a : Located α} (h : a.Placed S ts)
    (hp : p.Gives a.value c c') (hPasses : c.Passes ts c') (hTokens : ts ≠ []) : (located p).Gives a c c' := by
  have hRead := hp.located hPasses hTokens
  rwa [← h.2] at hRead

theorem gives_typedDecl {α : Type} {k : Keyword} {name : Identifier} {type : Located TypeExpr} {span : Span}
    (h : k.Declares name type span ts) (hPasses : c.Passes ts c') (hEnds : TypeEnds type.value c')
    (make : Identifier → Located TypeExpr → Span → α) :
    (spanning (do
      keyword k
      let name ← identifier
      mark .colon
      let type ← located typeExpr
      return make name type)).Gives (make name type span) c c' := by
  obtain ⟨s, s', own, hType, rfl, rfl⟩ := h
  obtain ⟨c₁, hKeyword, hPasses₁⟩ := hPasses.exists_cons
  obtain ⟨c₂, hName, hPasses₂⟩ := hPasses₁.exists_cons
  obtain ⟨c₃, hColon, hOwn⟩ := hPasses₂.exists_cons
  have hTokens : own ≠ [] := fun hNil => hType.1.ne_nil (List.map_eq_nil_iff.mpr hNil)
  refine Gives.spanning ?_ hPasses (List.cons_ne_nil _ _)
  apply (Gives.keyword hKeyword).bind
  apply ((Gives.name hName).located hName (List.cons_ne_nil _ _)).bind
  apply (Gives.mark hColon).bind
  exact (gives_located hType (gives_typeExpr hType.1 hOwn hEnds) hOwn hTokens).map _

end Types
end Grammar
end TypedMarkup
