import TypedMarkup.Proofs.Document.Reading
import TypedMarkup.Proofs.Token.Order

/-! # The tags of a document

The elements of a document at any depth, in the order of the source. In a document that was read from a
source each of them starts at a token of its own, so that the starts of their spans increase.
-/
namespace TypedMarkup
set_option autoImplicit false

/-- An element without its children. -/
structure Tag where
  span : Span
  name : Identifier
  attributes : List Attribute

namespace Node

mutual
/-- The elements in a node, the node itself before its children. -/
def tags : Node → List Tag
  | element span name attributes children _ => ⟨span, name, attributes⟩ :: tagsIn children
  | text _ _ => []
  | expression _ _ => []

def tagsIn : List Node → List Tag
  | [] => []
  | node :: rest => tags node ++ tagsIn rest
end

theorem tagsIn_eq_flatMap (nodes : List Node) : tagsIn nodes = nodes.flatMap tags := by
  induction nodes with
  | nil => rfl
  | cons node rest ih => rw [tagsIn, List.flatMap_cons, ih]

theorem tagsIn_append (nodes nodes' : List Node) : tagsIn (nodes ++ nodes') = tagsIn nodes ++ tagsIn nodes' := by
  rw [tagsIn_eq_flatMap, tagsIn_eq_flatMap, tagsIn_eq_flatMap, List.flatMap_append]

end Node

def Document.tags (d : Document) : List Tag := Node.tagsIn d.markup

theorem Document.tags_cons (i : Item) (items : List Item) :
    Document.tags ⟨i :: items⟩ = Document.tags ⟨[i]⟩ ++ Document.tags ⟨items⟩ := by
  cases i with
  | component decl => rfl
  | binding decl => rfl
  | markup node => exact Node.tagsIn_append [node] (Document.markup ⟨items⟩)

/-- The starts of tags are among the starts of tokens, in the same order. -/
def Tag.StartAmong (tags : List Tag) (tokens : List (Located Token)) : Prop :=
  (tags.map fun tag => tag.span.start).Sublist (tokens.map fun t => t.span.start)

namespace Tag.StartAmong

variable {tags tags' : List Tag} {tokens tokens' : List (Located Token)}

theorem nil (tokens : List (Located Token)) : StartAmong [] tokens := List.nil_sublist _

theorem append (h : StartAmong tags tokens) (h' : StartAmong tags' tokens') :
    StartAmong (tags ++ tags') (tokens ++ tokens') := by
  rw [StartAmong, List.map_append, List.map_append]
  exact List.Sublist.append h h'

theorem behind (before : List (Located Token)) (h : StartAmong tags tokens) : StartAmong tags (before ++ tokens) :=
  (nil before).append h

theorem before (h : StartAmong tags tokens) (after : List (Located Token)) : StartAmong tags (tokens ++ after) := by
  have h' := h.append (nil after)
  rwa [List.append_nil] at h'

theorem element {t : Located Token} {rest : List (Located Token)} {name : Identifier}
    {attributes : List Attribute} (h : StartAmong tags rest) :
    StartAmong (⟨Span.ofTokens (t :: rest), name, attributes⟩ :: tags) (t :: rest) :=
  List.Sublist.cons_cons _ h

end Tag.StartAmong

namespace Grammar
open Reader

theorem ensures_textNode : Ensures textNode fun taken n => Tag.StartAmong n.tags taken := by
  apply Ensures.spanning
  apply Ensures.satisfy
  intro t f hPick
  split at hPick
  case h_1 =>
    cases hPick
    exact ⟨by simp, .nil _⟩
  case h_2 => cases hPick

theorem ensures_expressionNode : Ensures expressionNode fun taken n => Tag.StartAmong n.tags taken := by
  apply Ensures.spanning
  apply Ensures.bind
  apply takes_reference.mono
  intro taken name hTaken
  apply Ensures.pure
  rw [List.append_nil]
  exact ⟨hTaken, .nil _⟩

section Element

variable {node : Reader Node} (hNode : Ensures node fun taken n => Tag.StartAmong n.tags taken)
include hNode

theorem ensures_many_node : Ensures (many node) fun taken nodes => Tag.StartAmong (Node.tagsIn nodes) taken := by
  apply hNode.many
  · exact .nil _
  · intro taken n taken' nodes hHead hRest
    exact hHead.append hRest

theorem ensures_elementBody :
    Ensures (elementBody node) fun taken body => Tag.StartAmong (Node.tagsIn body.1) taken := by
  apply Ensures.orElse
  · apply Ensures.bind
    apply (Takes.mark .slashGreater).mono
    intro taken _ _
    apply Ensures.pure
    exact .nil _
  · apply Ensures.bind
    apply (Takes.mark .greater).mono
    intro takenMark _ _
    apply Ensures.bind
    apply (ensures_many_node hNode).mono
    intro takenChildren children hChildren
    apply Ensures.bind
    apply (takes_identifier.advances.between .lessSlash .greater).mono
    intro takenClose close _
    apply Ensures.pure
    rw [List.append_nil]
    exact (hChildren.before takenClose).behind takenMark

theorem ensures_elementNode : Ensures (elementNode node) fun taken n => Tag.StartAmong n.tags taken := by
  apply Ensures.spanning
  apply Ensures.bind
  apply (ensures_mark .less).mono
  rintro _ _ ⟨t, rfl, -⟩
  apply Ensures.bind
  apply takes_identifier.mono
  intro takenName name _
  apply Ensures.bind
  apply takes_tagAttribute.advances.many.mono
  intro takenAttributes attributes _
  apply Ensures.bind
  apply (ensures_elementBody hNode).mono
  rintro takenBody ⟨children, closing⟩ hBody
  apply Ensures.pure
  rw [List.append_nil]
  refine ⟨by simp, Tag.StartAmong.element ?_⟩
  exact (hBody.behind takenAttributes).behind takenName

end Element

theorem ensures_node : Ensures node fun taken n => Tag.StartAmong n.tags taken := by
  apply Ensures.fix
  intro inner hInner
  exact (ensures_elementNode hInner).orElse (ensures_textNode.orElse ensures_expressionNode)

theorem ensures_item : Ensures item fun taken i => Tag.StartAmong (Document.tags ⟨[i]⟩) taken := by
  apply Ensures.orElse
  · apply Ensures.bind
    apply takes_componentDecl.mono
    intro taken decl _
    exact Ensures.pure (.nil _)
  · apply Ensures.orElse
    · apply Ensures.bind
      apply takes_bindingDecl.mono
      intro taken decl _
      exact Ensures.pure (.nil _)
    · apply Ensures.bind
      apply ensures_node.mono
      intro taken n hNode
      apply Ensures.pure
      exact hNode.append (.nil [])

theorem ensures_document : Ensures document fun taken d => Tag.StartAmong d.tags taken := by
  apply Ensures.bind
  have hItems : Ensures (many item) fun taken items => Tag.StartAmong (Document.tags ⟨items⟩) taken := by
    apply ensures_item.many
    · exact .nil _
    · intro taken i taken' items hHead hRest
      rw [Document.tags_cons]
      exact hHead.append hRest
  apply hItems.mono
  intro taken items hItems
  apply Ensures.bind
  apply advances_endOfSource.mono
  intro taken' _ _
  apply Ensures.pure
  rw [List.append_nil]
  exact hItems.before taken'

end Grammar

namespace Document

/-- In a document read from a source the elements start one behind another. -/
theorem parse_tags_increasing {source : String} {d : Document} (h : parse source = .ok d) :
    (d.tags.map fun tag => tag.span.start).Pairwise (· < ·) := by
  obtain ⟨⟨c, hRead⟩, -⟩ := parse_eq_ok_iff.mp h
  obtain ⟨taken, hPasses, hStarts⟩ := Grammar.ensures_document _ _ _ hRead
  have hTokens := Token.scan_starts_increasing source
  rw [show Token.scan source = taken ++ c.rest from hPasses.rest, List.map_append] at hTokens
  exact (List.pairwise_append.mp hTokens).1.sublist hStarts

end Document
end TypedMarkup
