import TypedMarkup.Proofs.Document.Spelling
import TypedMarkup.Document.Grammar
import TypedMarkup.Proofs.Reader.Completions

/-! # What refused parts could have been

The readers of the grammar read the spellings of what they return; and where one of them refuses a token, what it
has taken begins a spelling, that goes on with a token that was wanted there.
-/
namespace TypedMarkup
set_option autoImplicit false
open Spelling

theorem TypeExpr.Spelled.suffixes {t : TypeExpr} {suffixes : List Unit} {ts ts' : List Token} (h : t.Spelled ts)
    (hRow : Row (fun _ own => own = [.mark .bracketOpen, .mark .bracketClose]) suffixes ts') :
    (suffixes.foldl (fun t _ => t.array) t).Spelled (ts ++ ts') := by
  -- Each suffix makes an array of all that stands before it.
  induction hRow generalizing t ts with
  | nil => rwa [List.append_nil]
  | cons head rest ih =>
    obtain rfl := head
    rw [← List.append_assoc]
    exact ih (.array h)

namespace Grammar
open Reader

theorem completes_identifier : Completes identifier Identifier.Spelled := Completes.name.located

theorem completes_typeExpr : Completes typeExpr TypeExpr.Spelled := by
  apply Completes.fix ⟨.named "x", _, [], .named "x"⟩
  intro inner hInner
  apply Completes.name.bind
  rintro head _ rfl
  apply ((hInner.separated .comma).between .less .greater).maybe.bind
  intro args tsArgs hArgs
  have hSuffix : Completes (do mark .bracketOpen; mark .bracketClose)
      fun _ ts => ts = [.mark .bracketOpen, .mark .bracketClose] := by
    apply (Completes.mark .bracketOpen).bind
    rintro _ _ rfl
    apply (Completes.mark .bracketClose).mono
    rintro _ _ rfl
    rfl
  apply (hSuffix.row ⟨(), _, _, rfl⟩).map
  intro suffixes tsSuffixes hSuffixes
  rw [← List.append_assoc]
  refine TypeExpr.Spelled.suffixes ?_ hSuffixes
  cases args with
  | none =>
    obtain rfl : tsArgs = [] := hArgs
    exact .named head
  | some args =>
    obtain ⟨own, hOwn, rfl⟩ := hArgs
    exact .applied hOwn

theorem completes_typeParams : Completes typeParams ComponentDecl.TypeParamsSpelled := by
  have hList : Completes
      (do
        let params ← separated .comma identifier
        let _ ← maybe (mark .comma)
        return params)
      fun params ts => ∃ own, Separated .comma Identifier.Spelled params own ∧
        (ts = own ∨ ts = own ++ [.mark .comma]) := by
    apply (completes_identifier.separated .comma).bind
    intro params own hOwn
    apply (Completes.mark .comma).maybe.map
    intro comma tsComma hComma
    refine ⟨own, hOwn, ?_⟩
    cases comma with
    | none =>
      obtain rfl : tsComma = [] := hComma
      exact .inl (List.append_nil own)
    | some _ =>
      obtain rfl : tsComma = [.mark .comma] := hComma
      exact .inr rfl
  apply (hList.between .less .greater).maybe.map
  intro params ts hParams
  cases params with
  | none =>
    obtain rfl : ts = [] := hParams
    exact .none
  | some params =>
    obtain ⟨_, ⟨own, hOwn, rfl | rfl⟩, rfl⟩ := hParams
    · exact .some hOwn
    · rw [List.append_assoc]
      exact .trailing hOwn

theorem completes_typedDecl {α : Type} (k : Keyword) {make : Identifier → Located TypeExpr → Span → α}
    {S : α → List Token → Prop}
    (h : ∀ (name : Identifier) (type : Located TypeExpr) (span : Span) (ts : List Token), type.value.Spelled ts →
      S (make name type span) (.keyword k :: .identifier name.value :: .mark .colon :: ts)) :
    Completes (spanning (do
      keyword k
      let name ← identifier
      mark .colon
      let type ← located typeExpr
      return make name type)) S := by
  apply Completes.spanning
  apply (Completes.keyword k).bind
  rintro _ _ rfl
  apply completes_identifier.bind
  rintro name _ rfl
  apply (Completes.mark .colon).bind
  rintro _ _ rfl
  apply completes_typeExpr.located.map
  intro type ts hType span
  exact h name type span ts hType

theorem completes_paramDecl : Completes paramDecl ParamDecl.Spelled :=
  completes_typedDecl .param fun _ _ _ ts hType => ⟨ts, hType, rfl⟩

theorem completes_bindingDecl : Completes bindingDecl BindingDecl.Spelled :=
  completes_typedDecl .binding fun _ _ _ ts hType => ⟨ts, hType, rfl⟩

theorem completes_componentDecl : Completes componentDecl ComponentDecl.Spelled := by
  have hParams : Completes (many paramDecl) (Row ParamDecl.Spelled) := by
    apply completes_paramDecl.row
    obtain ⟨p, _, type, hType, rfl⟩ := completes_paramDecl.possible
    exact ⟨p, _, _, type, hType, rfl⟩
  apply Completes.spanning
  apply (Completes.keyword .component).bind
  rintro _ _ rfl
  apply completes_identifier.bind
  rintro name _ rfl
  apply completes_typeParams.bind
  intro typeParams tsTypeParams hTypeParams
  apply (hParams.between .braceOpen .braceClose).map
  rintro params _ ⟨own, hOwn, rfl⟩ span
  exact ⟨tsTypeParams, own, hTypeParams, hOwn, rfl⟩

theorem completes_reference : Completes reference fun name ts => ts = [.mark .atSign, .identifier name] := by
  apply (Completes.mark .atSign).bind
  rintro _ _ rfl
  apply Completes.name.mono
  rintro name _ rfl
  rfl

theorem completes_literal : Completes literal AttributeValue.Spelled := by
  refine Completes.satisfy (t := .keyword .yes) ?_ rfl nofun
  intro t value hPick
  cases t with
  | text content =>
    cases hPick
    exact .text content
  | integer n =>
    cases hPick
    exact .integer n
  | float x =>
    cases hPick
    exact .float x
  | keyword k =>
    cases k with
    | yes =>
      cases hPick
      exact .yes
    | no =>
      cases hPick
      exact .no
    | _ => cases hPick
  | identifier name => cases hPick
  | mark m => cases hPick

theorem completes_attributeValue : Completes attributeValue AttributeValue.Spelled := by
  apply completes_literal.orElse
  apply Completes.orElse
  · apply completes_reference.map
    rintro name _ rfl
    exact .binding name
  · exact completes_typeExpr.map fun _ _ hType => .type hType

theorem completes_tagAttribute : Completes tagAttribute Attribute.Spelled := by
  have hValue : Completes (do mark .equals; located attributeValue)
      fun value ts => ∃ own, value.value.Spelled own ∧ ts = .mark .equals :: own := by
    apply (Completes.mark .equals).bind
    rintro _ _ rfl
    apply completes_attributeValue.located.mono
    intro value own hOwn
    exact ⟨own, hOwn, rfl⟩
  apply Completes.spanning
  apply completes_identifier.bind
  rintro name _ rfl
  apply hValue.maybe.map
  intro value ts hSpelled span
  cases value with
  | none =>
    obtain rfl : ts = [] := hSpelled
    exact .bare rfl
  | some value =>
    obtain ⟨own, hOwn, rfl⟩ := hSpelled
    exact .valued hOwn

theorem completes_textNode : Completes textNode Node.Spelled := by
  apply Completes.spanning
  refine Completes.satisfy (t := .text "") ?_ rfl nofun
  intro t f hPick span
  split at hPick <;> cases hPick
  exact .text span _

theorem completes_expressionNode : Completes expressionNode Node.Spelled := by
  apply Completes.spanning
  apply completes_reference.map
  rintro name _ rfl span
  exact .expression span name

section Element

variable {node : Reader Node} (hNode : Completes node Node.Spelled)
include hNode

/-- The body of an element completes any opening tag to a spelling of the element. -/
theorem completes_elementBody :
    Completes (elementBody node) fun body ts => ∀ (span : Span) (name : Identifier) (attributes : List Attribute)
      (own : List Token), Row Attribute.Spelled attributes own →
      Node.Spelled (.element span name attributes body.1 body.2)
        (.mark .less :: .identifier name.value :: (own ++ ts)) := by
  apply Completes.orElse
  · apply (Completes.mark .slashGreater).map
    rintro _ _ rfl span name attributes own hOwn
    exact .selfClosing hOwn
  · apply (Completes.mark .greater).bind
    rintro _ _ rfl
    apply (hNode.row ⟨_, _, _, .text ⟨0, 0⟩ ""⟩).bind
    intro children inner hChildren
    apply (completes_identifier.between .lessSlash .greater).map
    rintro close _ ⟨_, rfl, rfl⟩ span name attributes own hOwn
    exact .closed hOwn hChildren

theorem completes_elementNode : Completes (elementNode node) Node.Spelled := by
  have hAttributes : Completes (many tagAttribute) (Row Attribute.Spelled) :=
    completes_tagAttribute.row ⟨⟨⟨"x", ⟨0, 0⟩⟩, ⟨.truth true, ⟨0, 0⟩⟩, ⟨0, 0⟩⟩, _, _, .bare rfl⟩
  apply Completes.spanning
  apply (Completes.mark .less).bind
  rintro _ _ rfl
  apply completes_identifier.bind
  rintro name _ rfl
  apply hAttributes.bind
  intro attributes own hOwn
  apply (completes_elementBody hNode).map
  rintro ⟨children, closing⟩ ts hBody span
  exact hBody span name attributes own hOwn

end Element

theorem completes_node : Completes node Node.Spelled := by
  apply Completes.fix ⟨_, _, _, .text ⟨0, 0⟩ ""⟩
  intro inner hInner
  exact (completes_elementNode hInner).orElse (completes_textNode.orElse completes_expressionNode)

theorem completes_item : Completes item Item.Spelled := by
  apply Completes.orElse
  · exact completes_componentDecl.map fun _ _ hDecl => .component hDecl
  · apply Completes.orElse
    · exact completes_bindingDecl.map fun _ _ hDecl => .binding hDecl
    · exact completes_node.map fun _ _ hNode => .markup hNode

end Grammar
end TypedMarkup
