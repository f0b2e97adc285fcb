import TypedMarkup.Proofs.Document.Completeness
import TypedMarkup.Proofs.Reader.Lookahead

/-! # How far the grammar looks

What the readers of the grammar reply is told by the tokens that they have come to.
-/
namespace TypedMarkup.Grammar
set_option autoImplicit false
open Reader

theorem local_identifier : Local identifier := Local.name.located Takes.name

theorem local_typeExpr : Local typeExpr := by
  apply Local.fix guarded_typeExpr guarded_typeExpr.advances
  intro inner _ hInner
  apply Local.name.bind
  intro head
  apply ((hInner.separated .comma).between .less .greater).maybe.bind
  intro args
  have hSuffix : Local suffix := (Local.mark .bracketOpen).bind fun _ => Local.mark .bracketClose
  apply (hSuffix.many takes_suffix).bind
  intro suffixes
  exact Local.pure _

theorem local_typeParams : Local typeParams := by
  have hList : Local paramList := by
    apply (local_identifier.separated .comma).bind
    intro params
    apply (Local.mark .comma).maybe.bind
    intro comma
    exact Local.pure params
  apply (hList.between .less .greater).maybe.bind
  intro params
  exact Local.pure _

theorem local_typedDecl {α : Type} (k : Keyword) (make : Identifier → Located TypeExpr → Span → α) :
    Local (spanning (do
      keyword k
      let name ← identifier
      mark .colon
      let type ← located typeExpr
      return make name type)) := by
  refine Local.spanning ?_ (takes_typedDecl k make)
  apply (Local.keyword k).bind
  intro _
  apply local_identifier.bind
  intro name
  apply (Local.mark .colon).bind
  intro _
  apply (local_typeExpr.located takes_typeExpr).bind
  intro type
  exact Local.pure _

theorem local_paramDecl : Local paramDecl := local_typedDecl .param ParamDecl.mk

theorem local_bindingDecl : Local bindingDecl := local_typedDecl .binding BindingDecl.mk

theorem local_componentDecl : Local componentDecl := by
  refine Local.spanning ?_ takes_componentDecl
  apply (Local.keyword .component).bind
  intro _
  apply local_identifier.bind
  intro name
  apply local_typeParams.bind
  intro typeParams
  apply ((local_paramDecl.many takes_paramDecl).between .braceOpen .braceClose).bind
  intro params
  exact Local.pure _

theorem local_reference : Local reference := (Local.mark .atSign).bind fun _ => Local.name

theorem local_attributeValue : Local attributeValue := by
  apply (Local.satisfy _ _).orElse
  apply Local.orElse
  · exact local_reference.bind fun name => Local.pure _
  · exact local_typeExpr.bind fun type => Local.pure _

theorem local_tagAttribute : Local tagAttribute := by
  have hValue : Local (do mark .equals; located attributeValue) :=
    (Local.mark .equals).bind fun _ => local_attributeValue.located takes_attributeValue
  refine Local.spanning ?_ takes_tagAttribute
  apply local_identifier.bind
  intro name
  apply hValue.maybe.bind
  intro value
  exact Local.pure _

theorem local_textNode : Local textNode := (Local.satisfy _ _).spanning takes_textNode

theorem local_expressionNode : Local expressionNode :=
  (local_reference.bind fun _ => Local.pure _).spanning takes_expressionNode

theorem local_elementBody {p : Reader Node} (hp : Local p) (hTakes : Takes p) : Local (elementBody p) := by
  apply Local.orElse
  · exact (Local.mark .slashGreater).bind fun _ => Local.pure _
  · apply (Local.mark .greater).bind
    intro _
    apply (hp.many hTakes).bind
    intro children
    apply (local_identifier.between .lessSlash .greater).bind
    intro close
    exact Local.pure _

theorem local_elementNode {p : Reader Node} (hp : Local p) (hTakes : Takes p) : Local (elementNode p) := by
  refine Local.spanning ?_ (takes_elementNode hp.advances)
  apply (Local.mark .less).bind
  intro _
  apply local_identifier.bind
  intro name
  apply (local_tagAttribute.many takes_tagAttribute).bind
  intro attributes
  apply (local_elementBody hp hTakes).bind
  intro body
  exact Local.pure _

theorem local_node : Local node := by
  apply Local.fix guarded_node
  · intro inner hInner
    exact (takes_elementNode hInner.advances).orElse (takes_textNode.orElse takes_expressionNode)
  · intro inner hTakes hInner
    exact (local_elementNode hInner hTakes).orElse (local_textNode.orElse local_expressionNode)

theorem local_item : Local item := by
  apply Local.orElse
  · exact local_componentDecl.bind fun decl => Local.pure _
  · apply Local.orElse
    · exact local_bindingDecl.bind fun decl => Local.pure _
    · exact local_node.bind fun n => Local.pure _

theorem local_items : Local (many item) := local_item.many takes_item

end TypedMarkup.Grammar
