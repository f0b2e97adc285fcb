import TypedMarkup.Proofs.Document.TypeReading

/-! # Reading markup

Nodes placed on tokens are read as they are, whatever stands behind them: each ends with a token of its own.
An attribute may go on behind its name or its type, so that inside a tag the next token decides.
-/
namespace TypedMarkup
set_option autoImplicit false
open Reader Placement

theorem Attribute.Placed.exists_identifier {a : Attribute} {ts : List (Located Token)} (h : a.Placed ts) :
    ∃ rest, ts = Identifier.token a.name :: rest := by
  cases h with
  | bare name => exact ⟨[], rfl⟩
  | valued _ => exact ⟨_, rfl⟩

namespace Grammar

variable {c c' : Cursor} {ts : List (Located Token)}

theorem gives_identifier {i : Identifier} (h : c.Passes [Identifier.token i] c') : identifier.Gives i c c' :=
  (Gives.name h).located h (List.cons_ne_nil _ _)

theorem gives_reference {n : String} {s s' : Span} (h : c.Passes [⟨.mark .atSign, s⟩, ⟨.identifier n, s'⟩] c') :
    reference.Gives n c c' := by
  obtain ⟨c₁, hAt, hName⟩ := h.exists_cons
  exact (Gives.mark hAt).bind (Gives.name hName)

/-- What can follow an attribute: another one, or the end of the tag. -/
inductive InTag : Token → Prop
  | name (n : String) : InTag (.identifier n)
  | greater : InTag (.mark .greater)
  | slashGreater : InTag (.mark .slashGreater)

theorem InTag.typeEnds {u : Token} (h : InTag u) (hNext : c.next? = some u) (t : TypeExpr) : TypeEnds t c := by
  apply TypeEnds.of_next? <;> rw [hNext] <;> cases h <;> simp

theorem gives_attributeValue {v : AttributeValue} (h : v.Spelled (ts.map Located.value)) (hPasses : c.Passes ts c')
    (hEnds : ∀ t, TypeEnds t c') : attributeValue.Gives v c c' := by
  generalize hValues : ts.map Located.value = values at h
  cases h with
  | binding name =>
    obtain ⟨s, _, rfl, h₁⟩ := map_value_eq_cons_iff.mp hValues
    obtain ⟨s', rfl⟩ := map_value_eq_singleton_iff.mp h₁
    have hLiteral : literal.Refuses c := by
      apply Refuses.satisfy
      rw [hPasses.next?_eq]
      rintro _ ⟨⟩
      rfl
    exact Gives.orElse_of_refuses hLiteral (((gives_reference hPasses).map _).orElse _)
  | type hType =>
    obtain ⟨n, rest, rfl⟩ := hType.exists_identifier
    obtain ⟨s, _, rfl, -⟩ := map_value_eq_cons_iff.mp hValues
    have hLiteral : literal.Refuses c := by
      apply Refuses.satisfy
      rw [hPasses.next?_eq]
      rintro _ ⟨⟩
      rfl
    have hReference : reference.Refuses c := by
      apply (Refuses.mark _).bind
      rw [hPasses.next?_eq]
      simp
    rw [← hValues] at hType
    apply Gives.orElse_of_refuses hLiteral
    apply Gives.orElse_of_refuses (hReference.bind _)
    exact (gives_typeExpr hType hPasses (hEnds _)).map _
  | _ =>
    obtain ⟨s, rfl⟩ := map_value_eq_singleton_iff.mp hValues
    have hLiteral : literal.Gives _ c c' := Gives.satisfy hPasses rfl
    exact hLiteral.orElse _

theorem gives_tagAttribute {a : Attribute} (h : a.Placed ts) (hPasses : c.Passes ts c') {u : Token}
    (hNext : c'.next? = some u) (hTag : InTag u) : tagAttribute.Gives a c c' := by
  cases h with
  | bare name =>
    have hNone : (do mark .equals; located attributeValue : Reader (Located AttributeValue)).Refuses c' := by
      apply (Refuses.mark _).bind
      rw [hNext]
      cases hTag <;> simp
    refine Gives.spanning ?_ hPasses (List.cons_ne_nil _ _)
    exact (gives_identifier hPasses).bind ((Gives.maybe_of_refuses hNone).bind (Gives.pure _ c'))
  | @valued name value s own hValue =>
    obtain ⟨c₁, hName, hPasses₁⟩ := hPasses.exists_cons
    obtain ⟨c₂, hEquals, hOwn⟩ := hPasses₁.exists_cons
    have hTokens : own ≠ [] := fun hNil => hValue.1.ne_nil (List.map_eq_nil_iff.mpr hNil)
    have hRead := gives_attributeValue hValue.1 hOwn (hTag.typeEnds hNext)
    refine Gives.spanning ?_ hPasses (List.cons_ne_nil _ _)
    apply (gives_identifier hName).bind
    apply ((Gives.mark hEquals).bind (gives_located hValue hRead hOwn hTokens)).maybe.bind
    exact Gives.pure _ c'

theorem refuses_tagAttribute (h : ∀ n, c.next? ≠ some (.identifier n)) : tagAttribute.Refuses c :=
  (((Refuses.name h).located).bind _).spanning

theorem gives_attributes {attributes : List Attribute} (h : InRow Attribute.Placed attributes ts)
    (hPasses : c.Passes ts c')
    (hEnd : c'.next? = some (.mark .greater) ∨ c'.next? = some (.mark .slashGreater)) :
    (many tagAttribute).Gives attributes c c' := by
  apply Gives.many takes_tagAttribute h hPasses
  · apply refuses_tagAttribute
    intro n
    rcases hEnd with h | h <;> simp [h]
  · intro a as' own after c₁ c₂ _ hOwn hAfter hPasses₁ hPasses₂
    cases as' with
    | nil =>
      obtain rfl : after = [] := hAfter
      obtain rfl := hPasses₂.eq_of_nil
      rcases hEnd with hNext | hNext
      · exact gives_tagAttribute hOwn hPasses₁ hNext .greater
      · exact gives_tagAttribute hOwn hPasses₁ hNext .slashGreater
    | cons b as' =>
      obtain ⟨own', after', hOwn', -, rfl⟩ := hAfter
      obtain ⟨rest, rfl⟩ := hOwn'.exists_identifier
      exact gives_tagAttribute hOwn hPasses₁ hPasses₂.next?_eq (.name b.name.value)

theorem advances_elementBody {p : Reader Node} (hp : Advances p) : Advances (elementBody p) := by
  apply Ensures.orElse
  · apply (Takes.mark .slashGreater).advances.bind
    intro _
    exact Ensures.pure trivial
  · apply (Takes.mark .greater).advances.bind
    intro _
    apply hp.many.bind
    intro children
    apply (takes_identifier.advances.between .lessSlash .greater).bind
    intro close
    exact Ensures.pure trivial

theorem takes_elementNode {p : Reader Node} (hp : Advances p) : Takes (elementNode p) := by
  apply Takes.spanning
  apply (Takes.mark .less).bind
  intro _
  apply takes_identifier.advances.bind
  intro name
  apply takes_tagAttribute.advances.many.bind
  intro attributes
  apply (advances_elementBody hp).bind
  intro body
  exact Ensures.pure trivial

theorem takes_textNode : Takes textNode := (Takes.satisfy _ _).spanning

theorem takes_expressionNode : Takes expressionNode :=
  Takes.spanning (takes_reference.bind fun _ => Ensures.pure trivial)

theorem guarded_node : Guarded fun node => orElse (elementNode node) (orElse textNode expressionNode) where
  advances p hp :=
    (takes_elementNode hp).advances.orElse (takes_textNode.advances.orElse takes_expressionNode.advances)
  agree n p q hp h := by
    apply AgreeBelow.orElse _ (AgreeBelow.refl _ _)
    apply AgreeBelow.spanning
    apply AgreeBelow.behind (Takes.mark .less)
    intro _
    apply (AgreeBelow.refl _ _).bind takes_identifier.advances
    intro name
    apply (AgreeBelow.refl _ _).bind takes_tagAttribute.advances.many
    intro attributes
    apply AgreeBelow.bind_left
    apply (AgreeBelow.refl _ _).orElse
    apply (AgreeBelow.refl _ _).bind (Takes.mark .greater).advances
    intro _
    exact (h.many hp).bind_left _

theorem node_eq : node = orElse (elementNode node) (orElse textNode expressionNode) := guarded_node.fix_eq

theorem takes_node : Takes node := by
  apply Ensures.fix
  intro inner hInner
  exact (takes_elementNode hInner.advances).orElse (takes_textNode.orElse takes_expressionNode)

theorem refuses_elementNode {p : Reader Node} (h : c.next? ≠ some (.mark .less)) : (elementNode p).Refuses c :=
  ((Refuses.mark h).bind _).spanning

theorem refuses_textNode (h : ∀ content, c.next? ≠ some (.text content)) : textNode.Refuses c := by
  apply Refuses.spanning
  apply Refuses.satisfy
  intro t ht
  split
  case h_1 content => exact absurd ht (h content)
  case h_2 => rfl

theorem refuses_expressionNode (h : c.next? ≠ some (.mark .atSign)) : expressionNode.Refuses c :=
  (((Refuses.mark h).bind _).bind _).spanning

theorem refuses_node (hElement : c.next? ≠ some (.mark .less)) (hText : ∀ content, c.next? ≠ some (.text content))
    (hExpression : c.next? ≠ some (.mark .atSign)) : node.Refuses c := by
  rw [node_eq]
  exact (refuses_elementNode hElement).orElse ((refuses_textNode hText).orElse (refuses_expressionNode hExpression))

/-- An element is read behind its opening angle bracket if its body is read behind its attributes. -/
theorem gives_element {s s' : Span} {name : Identifier} {attributes : List Attribute} {children : List Node}
    {closing : Option Identifier} {m : Mark} {own rest : List (Located Token)}
    (hPasses : c.Passes (⟨.mark .less, s⟩ :: Identifier.token name :: (own ++ ⟨.mark m, s'⟩ :: rest)) c')
    (hAttributes : InRow Attribute.Placed attributes own) (hMark : m = .greater ∨ m = .slashGreater)
    (hBody : ∀ c₁, c₁.Passes (⟨.mark m, s'⟩ :: rest) c' → (elementBody node).Gives (children, closing) c₁ c') :
    node.Gives (.element (Span.ofTokens (⟨.mark .less, s⟩ :: Identifier.token name :: (own ++ ⟨.mark m, s'⟩ :: rest)))
      name attributes children closing) c c' := by
  obtain ⟨c₁, hLess, hPasses₁⟩ := hPasses.exists_cons
  obtain ⟨c₂, hName, hPasses₂⟩ := hPasses₁.exists_cons
  obtain ⟨c₃, hOwn, hPasses₃⟩ := hPasses₂.exists_append
  have hEnd : c₃.next? = some (.mark .greater) ∨ c₃.next? = some (.mark .slashGreater) := by
    rw [hPasses₃.next?_eq]
    simpa using hMark
  rw [node_eq]
  apply Gives.orElse
  refine Gives.spanning (g := fun span => Node.element span name attributes children closing) ?_ hPasses
    (List.cons_ne_nil _ _)
  apply (Gives.mark hLess).bind
  apply (gives_identifier hName).bind
  apply (gives_attributes hAttributes hOwn hEnd).bind
  exact (hBody c₃ hPasses₃).bind (Gives.pure _ c')

mutual
theorem gives_node : ∀ {n : Node} {ts : List (Located Token)} {c c' : Cursor}, n.Placed ts → c.Passes ts c' →
    node.Gives n c c'
  | .text span content, _, c, c', h, hPasses => by
    obtain rfl := h
    have hElement : (elementNode node).Refuses c := refuses_elementNode (by simp [hPasses.next?_eq])
    have hText : textNode.Gives (.text span content) c c' :=
      Gives.spanning (g := fun span => Node.text span content) (Gives.satisfy hPasses rfl) hPasses
        (List.cons_ne_nil _ _)
    rw [node_eq]
    exact Gives.orElse_of_refuses hElement (hText.orElse _)
  | .expression span name, _, c, c', h, hPasses => by
    obtain ⟨s, s', rfl, rfl⟩ := h
    have hElement : (elementNode node).Refuses c := refuses_elementNode (by simp [hPasses.next?_eq])
    have hText : textNode.Refuses c := refuses_textNode (by simp [hPasses.next?_eq])
    rw [node_eq]
    apply Gives.orElse_of_refuses hElement
    apply Gives.orElse_of_refuses hText
    exact Gives.spanning (g := fun span => Node.expression span name) ((gives_reference hPasses).map _) hPasses
      (List.cons_ne_nil _ _)
  | .element span name attributes children none, _, c, c', h, hPasses => by
    obtain ⟨s, s', own, hAttributes, rfl, rfl, rfl⟩ := h
    apply gives_element hPasses hAttributes (.inr rfl)
    intro c₁ hSlash
    exact ((Gives.mark hSlash).map _).orElse _
  | .element span name attributes children (some close), _, c, c', h, hPasses => by
    obtain ⟨s₁, s₂, s₃, s₄, own, inner, hAttributes, hChildren, rfl, rfl⟩ := h
    apply gives_element hPasses hAttributes (.inl rfl)
    intro c₁ hBody
    obtain ⟨c₂, hGreater, hPasses₂⟩ := hBody.exists_cons
    obtain ⟨c₃, hInner, hPasses₃⟩ := hPasses₂.exists_append
    obtain ⟨c₄, hLessSlash, hPasses₄⟩ := hPasses₃.exists_cons
    obtain ⟨c₅, hClose, hEnd⟩ := hPasses₄.exists_cons
    have hSelfClosing : (mark .slashGreater).Refuses c₁ := Refuses.mark (by simp [hBody.next?_eq])
    -- The closing tag begins no node, so that the children end in front of it.
    have hRefuses : node.Refuses c₃ := by
      apply refuses_node <;> simp [hPasses₃.next?_eq]
    apply Gives.orElse_of_refuses (hSelfClosing.bind _)
    apply (Gives.mark hGreater).bind
    apply (gives_nodes hChildren hInner hRefuses).bind
    exact (Gives.between hLessSlash (gives_identifier hClose) hEnd).map _

theorem gives_nodes : ∀ {nodes : List Node} {ts : List (Located Token)} {c c' : Cursor}, Node.PlacedIn nodes ts →
    c.Passes ts c' → node.Refuses c' → (many node).Gives nodes c c'
  | [], _, c, c', h, hPasses, hRefuses => by
    obtain rfl := h
    obtain rfl := hPasses.eq_of_nil
    exact Gives.many_nil takes_node hRefuses
  | n :: rest, _, c, c', h, hPasses, hRefuses => by
    obtain ⟨own, after, hHead, hRest, rfl⟩ := h
    obtain ⟨c₁, hOwn, hAfter⟩ := hPasses.exists_append
    exact Gives.many_cons takes_node (gives_node hHead hOwn) (gives_nodes hRest hAfter hRefuses)
end

end Grammar
end TypedMarkup
