import TypedMarkup.Document.Parse
import TypedMarkup.Proofs.Reader.Ensures

/-! # Reading documents

Every part of a document but an optional one takes at least one token. A source is read as a document
just if its tokens are and its closing tags match.
-/
namespace TypedMarkup
set_option autoImplicit false

namespace Grammar
open Reader

theorem takes_identifier : Takes identifier := Takes.name.located

theorem takes_typeExpr : Takes typeExpr := by
  apply Ensures.fix
  intro inner hInner
  apply Takes.name.bind
  intro head
  apply ((Advances.separated .comma hInner.advances).between .less .greater).maybe.bind
  intro args
  apply Advances.bind
  · apply Advances.many
    apply (Takes.mark .bracketOpen).advances.bind
    intro _
    exact (Takes.mark .bracketClose).advances
  · intro suffixes
    exact Ensures.pure trivial

theorem advances_typeParams : Advances typeParams := by
  apply Advances.bind
  · apply Advances.maybe
    apply Advances.between
    apply (Advances.separated .comma takes_identifier.advances).bind
    intro params
    apply (Takes.mark .comma).advances.maybe.bind
    intro _
    exact Ensures.pure trivial
  · intro params
    exact Ensures.pure trivial

theorem takes_typedDecl {α : Type} (k : Keyword) (make : Identifier → Located TypeExpr → Span → α) :
    Takes (spanning (do
      keyword k
      let name ← identifier
      mark .colon
      let type ← located typeExpr
      return make name type)) := by
  apply Takes.spanning
  apply (Takes.keyword k).bind
  intro _
  apply takes_identifier.advances.bind
  intro name
  apply (Takes.mark .colon).advances.bind
  intro _
  apply takes_typeExpr.located.advances.bind
  intro type
  exact Ensures.pure trivial

theorem takes_paramDecl : Takes paramDecl := takes_typedDecl .param ParamDecl.mk

theorem takes_bindingDecl : Takes bindingDecl := takes_typedDecl .binding BindingDecl.mk

theorem takes_componentDecl : Takes componentDecl := by
  apply Takes.spanning
  apply (Takes.keyword .component).bind
  intro _
  apply takes_identifier.advances.bind
  intro name
  apply advances_typeParams.bind
  intro typeParams
  apply (takes_paramDecl.advances.many.between .braceOpen .braceClose).bind
  intro params
  exact Ensures.pure trivial

theorem takes_reference : Takes reference := by
  apply (Takes.mark .atSign).bind
  intro _
  exact Takes.name.advances

theorem takes_literal : Takes literal := Takes.satisfy _ _

theorem takes_attributeValue : Takes attributeValue := by
  apply Ensures.orElse takes_literal
  apply Ensures.orElse
  · apply takes_reference.bind
    intro name
    exact Ensures.pure trivial
  · apply takes_typeExpr.bind
    intro type
    exact Ensures.pure trivial

theorem takes_tagAttribute : Takes tagAttribute := by
  apply Takes.spanning
  apply takes_identifier.bind
  intro name
  apply Advances.bind
  · apply Advances.maybe
    apply (Takes.mark .equals).advances.bind
    intro _
    exact takes_attributeValue.located.advances
  · intro value
    exact Ensures.pure trivial

end Grammar

namespace Document

theorem parse_eq_ok_iff {source : String} {d : Document} :
    parse source = .ok d ↔
      (∃ c, (Grammar.document (.ofTokens (Token.scan source))).result = some (d, c)) ∧ d.mismatches = [] := by
  rw [parse, ofTokens]
  cases (Grammar.document (.ofTokens (Token.scan source))).result with
  | none => simp
  | some first =>
    obtain ⟨d', c⟩ := first
    dsimp only
    split
    case h_1 hMatch =>
      constructor
      · rintro ⟨⟩
        exact ⟨⟨c, rfl⟩, hMatch⟩
      · rintro ⟨⟨_, ⟨⟩⟩, -⟩
        rfl
    case h_2 hMatch =>
      constructor
      · rintro ⟨⟩
      · rintro ⟨⟨_, ⟨⟩⟩, hNone⟩
        exact absurd hNone hMatch

end Document
end TypedMarkup
