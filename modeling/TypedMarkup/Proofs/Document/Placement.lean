import TypedMarkup.Proofs.Document.Moved
import TypedMarkup.Proofs.Document.Spelling

/-! # Documents placed on tokens

The spelling of a document with its places: which tokens write a part of a document, and that the span of
the part is that of these tokens. Whatever is spelled by tokens can be placed on them, and stays in place
when both are moved.
-/
namespace TypedMarkup
set_option autoImplicit false
open Spelling Placement

/-- The token that an identifier stands on. -/
def Identifier.token (i : Identifier) : Located Token := ⟨.identifier i.value, i.span⟩

def Located.Placed {α : Type} (S : α → List Token → Prop) (a : Located α) (ts : List (Located Token)) : Prop :=
  S a.value (ts.map value) ∧ a.span = Span.ofTokens ts

inductive Attribute.Placed : Attribute → List (Located Token) → Prop
  | bare (name : Identifier) : Placed ⟨name, ⟨.truth true, name.span⟩, name.span⟩ [Identifier.token name]
  | valued {name : Identifier} {value : Located AttributeValue} {s : Span} {ts : List (Located Token)}
      (h : value.Placed AttributeValue.Spelled ts) :
      Placed ⟨name, value, Span.ofTokens (Identifier.token name :: ⟨.mark .equals, s⟩ :: ts)⟩
        (Identifier.token name :: ⟨.mark .equals, s⟩ :: ts)

/-- A name declared with a type, behind a keyword. -/
def Keyword.Declares (k : Keyword) (name : Identifier) (type : Located TypeExpr) (span : Span)
    (ts : List (Located Token)) : Prop :=
  ∃ s s' own, type.Placed TypeExpr.Spelled own ∧
    ts = ⟨.keyword k, s⟩ :: Identifier.token name :: ⟨.mark .colon, s'⟩ :: own ∧ span = Span.ofTokens ts

def ParamDecl.Placed (p : ParamDecl) : List (Located Token) → Prop := Keyword.param.Declares p.name p.type p.span

def BindingDecl.Placed (b : BindingDecl) : List (Located Token) → Prop :=
  Keyword.binding.Declares b.name b.type b.span

def Identifier.Placed (i : Identifier) (ts : List (Located Token)) : Prop := ts = [token i]

inductive ComponentDecl.TypeParamsPlaced : List Identifier → List (Located Token) → Prop
  | none : TypeParamsPlaced [] []
  | some {params : List Identifier} {ts : List (Located Token)} (s s' : Span)
      (h : InSeries .comma Identifier.Placed params ts) :
      TypeParamsPlaced params (⟨.mark .less, s⟩ :: (ts ++ [⟨.mark .greater, s'⟩]))
  | trailing {params : List Identifier} {ts : List (Located Token)} (s s' s'' : Span)
      (h : InSeries .comma Identifier.Placed params ts) :
      TypeParamsPlaced params (⟨.mark .less, s⟩ :: (ts ++ [⟨.mark .comma, s'⟩, ⟨.mark .greater, s''⟩]))

def ComponentDecl.Placed (decl : ComponentDecl) (ts : List (Located Token)) : Prop :=
  ∃ s s' s'' typeParams params, TypeParamsPlaced decl.typeParams typeParams ∧
    InRow ParamDecl.Placed decl.params params ∧
    ts = ⟨.keyword .component, s⟩ :: Identifier.token decl.name ::
      (typeParams ++ ⟨.mark .braceOpen, s'⟩ :: (params ++ [⟨.mark .braceClose, s''⟩])) ∧
    decl.span = Span.ofTokens ts

namespace Node

mutual
def Placed : Node → List (Located Token) → Prop
  | text span content, ts => ts = [⟨.text content, span⟩]
  | expression span name, ts => ∃ s s', ts = [⟨.mark .atSign, s⟩, ⟨.identifier name, s'⟩] ∧ span = Span.ofTokens ts
  | element span name attributes children none, ts => ∃ s s' own, InRow Attribute.Placed attributes own ∧
      children = [] ∧
      ts = ⟨.mark .less, s⟩ :: Identifier.token name :: (own ++ [⟨.mark .slashGreater, s'⟩]) ∧
      span = Span.ofTokens ts
  | element span name attributes children (some close), ts => ∃ s₁ s₂ s₃ s₄ own inner,
      InRow Attribute.Placed attributes own ∧ PlacedIn children inner ∧
      ts = ⟨.mark .less, s₁⟩ :: Identifier.token name :: (own ++ ⟨.mark .greater, s₂⟩ :: (inner ++
        [⟨.mark .lessSlash, s₃⟩, Identifier.token close, ⟨.mark .greater, s₄⟩])) ∧
      span = Span.ofTokens ts

def PlacedIn : List Node → List (Located Token) → Prop
  | [], ts => ts = []
  | node :: rest, ts => ∃ own after, Placed node own ∧ PlacedIn rest after ∧ ts = own ++ after
end

theorem placedIn_eq_inRow (nodes : List Node) : PlacedIn nodes = InRow Placed nodes := by
  induction nodes with
  | nil =>
    funext ts
    rw [PlacedIn, InRow]
  | cons node rest ih =>
    funext ts
    rw [PlacedIn, InRow, ih]

end Node

def Item.Placed : Item → List (Located Token) → Prop
  | component decl => decl.Placed
  | binding decl => decl.Placed
  | markup node => node.Placed

def Document.Placed (d : Document) (ts : List (Located Token)) : Prop := InRow Item.Placed d.items ts

/-! ## What is spelled can be placed -/

/-- Taking all offsets to zero forgets the places. -/
abbrev nowhere : Nat → Nat := fun _ => 0

theorem Located.moved_nowhere_eq_iff {α : Type} {a b : Located α} :
    a.moved nowhere = b.moved nowhere ↔ a.value = b.value := by
  obtain ⟨a, s⟩ := a
  obtain ⟨b, s'⟩ := b
  simp [moved, Span.moved]

section Exists

variable {ts : List (Located Token)}

theorem Located.exists_placed {α : Type} {S : α → List Token → Prop} {a : Located α} (h : S a.value (ts.map value)) :
    ∃ b : Located α, b.Placed S ts ∧ b.moved nowhere = a.moved nowhere :=
  ⟨⟨a.value, Span.ofTokens ts⟩, ⟨h, rfl⟩, moved_nowhere_eq_iff.mpr rfl⟩

theorem Attribute.Spelled.exists_placed {a : Attribute} (h : a.Spelled (ts.map Located.value)) :
    ∃ a' : Attribute, a'.Placed ts ∧ a'.moved nowhere = a.moved nowhere := by
  obtain ⟨name, value, span⟩ := a
  generalize hValues : ts.map Located.value = values at h
  cases h with
  | bare hTrue =>
    obtain ⟨s, rfl⟩ := map_value_eq_singleton_iff.mp hValues
    refine ⟨_, .bare ⟨name.value, s⟩, ?_⟩
    have hValue : (⟨.truth true, s⟩ : Located AttributeValue).moved nowhere = value.moved nowhere :=
      Located.moved_nowhere_eq_iff.mpr hTrue.symm
    exact congrArg (Attribute.mk (name.moved nowhere) · (span.moved nowhere)) hValue
  | valued hValue =>
    obtain ⟨s, _, rfl, h₁⟩ := map_value_eq_cons_iff.mp hValues
    obtain ⟨s', own, rfl, rfl⟩ := map_value_eq_cons_iff.mp h₁
    obtain ⟨value', hPlaced, hMoved⟩ := Located.exists_placed hValue
    exact ⟨_, @Placed.valued ⟨name.value, s⟩ value' s' own hPlaced,
      congrArg (Attribute.mk (name.moved nowhere) · (span.moved nowhere)) hMoved⟩

theorem Keyword.exists_declares {k : Keyword} {name : Identifier} {type : Located TypeExpr} {own : List Token}
    (h : type.value.Spelled own)
    (hValues : ts.map Located.value = .keyword k :: .identifier name.value :: .mark .colon :: own) :
    ∃ name' type', k.Declares name' type' (Span.ofTokens ts) ts ∧ name'.moved nowhere = name.moved nowhere ∧
      type'.moved nowhere = type.moved nowhere := by
  obtain ⟨s, _, rfl, h₁⟩ := map_value_eq_cons_iff.mp hValues
  obtain ⟨sName, _, rfl, h₂⟩ := map_value_eq_cons_iff.mp h₁
  obtain ⟨s', own, rfl, rfl⟩ := map_value_eq_cons_iff.mp h₂
  obtain ⟨type', hPlaced, hMoved⟩ := Located.exists_placed h
  exact ⟨⟨name.value, sName⟩, type', ⟨s, s', own, hPlaced, rfl, rfl⟩, rfl, hMoved⟩

theorem ParamDecl.Spelled.exists_placed {p : ParamDecl} (h : p.Spelled (ts.map Located.value)) :
    ∃ p' : ParamDecl, p'.Placed ts ∧ p'.moved nowhere = p.moved nowhere := by
  obtain ⟨own, hType, hValues⟩ := h
  obtain ⟨name', type', hPlaced, hName, hType⟩ := Keyword.exists_declares hType hValues
  refine ⟨⟨name', type', _⟩, hPlaced, ?_⟩
  rw [moved, moved, hName, hType]
  rfl

theorem BindingDecl.Spelled.exists_placed {b : BindingDecl} (h : b.Spelled (ts.map Located.value)) :
    ∃ b' : BindingDecl, b'.Placed ts ∧ b'.moved nowhere = b.moved nowhere := by
  obtain ⟨own, hType, hValues⟩ := h
  obtain ⟨name', type', hPlaced, hName, hType⟩ := Keyword.exists_declares hType hValues
  refine ⟨⟨name', type', _⟩, hPlaced, ?_⟩
  rw [moved, moved, hName, hType]
  rfl

theorem Identifier.exists_inSeries {params : List Identifier}
    (h : Separated .comma Identifier.Spelled params (ts.map Located.value)) :
    ∃ params', InSeries .comma Identifier.Placed params' ts ∧
      params'.map (Located.moved nowhere) = params.map (Located.moved nowhere) := by
  apply (InSeries.of_separated h).exchange
  intro i own hOwn
  obtain ⟨s, rfl⟩ := map_value_eq_singleton_iff.mp hOwn
  exact ⟨⟨i.value, s⟩, rfl, rfl⟩

theorem ComponentDecl.TypeParamsSpelled.exists_placed {params : List Identifier}
    (h : TypeParamsSpelled params (ts.map Located.value)) :
    ∃ params', TypeParamsPlaced params' ts ∧
      params'.map (Located.moved nowhere) = params.map (Located.moved nowhere) := by
  generalize hValues : ts.map Located.value = values at h
  cases h with
  | none =>
    obtain rfl := List.map_eq_nil_iff.mp hValues
    exact ⟨[], .none, rfl⟩
  | some hParams =>
    obtain ⟨s, _, rfl, h₁⟩ := map_value_eq_cons_iff.mp hValues
    obtain ⟨own, _, rfl, rfl, h₂⟩ := List.map_eq_append_iff.mp h₁
    obtain ⟨s', rfl⟩ := map_value_eq_singleton_iff.mp h₂
    obtain ⟨params', hPlaced, hMoved⟩ := Identifier.exists_inSeries hParams
    exact ⟨params', .some s s' hPlaced, hMoved⟩
  | trailing hParams =>
    obtain ⟨s, _, rfl, h₁⟩ := map_value_eq_cons_iff.mp hValues
    obtain ⟨own, _, rfl, rfl, h₂⟩ := List.map_eq_append_iff.mp h₁
    obtain ⟨s', _, rfl, h₃⟩ := map_value_eq_cons_iff.mp h₂
    obtain ⟨s'', rfl⟩ := map_value_eq_singleton_iff.mp h₃
    obtain ⟨params', hPlaced, hMoved⟩ := Identifier.exists_inSeries hParams
    exact ⟨params', .trailing s s' s'' hPlaced, hMoved⟩

theorem ComponentDecl.Spelled.exists_placed {decl : ComponentDecl} (h : decl.Spelled (ts.map Located.value)) :
    ∃ decl' : ComponentDecl, decl'.Placed ts ∧ decl'.moved nowhere = decl.moved nowhere := by
  obtain ⟨typeParams, params, hTypeParams, hParams, hValues⟩ := h
  obtain ⟨s, _, rfl, h₁⟩ := map_value_eq_cons_iff.mp hValues
  obtain ⟨sName, _, rfl, h₂⟩ := map_value_eq_cons_iff.mp h₁
  obtain ⟨ownTypeParams, _, rfl, rfl, h₃⟩ := List.map_eq_append_iff.mp h₂
  obtain ⟨s', _, rfl, h₄⟩ := map_value_eq_cons_iff.mp h₃
  obtain ⟨ownParams, _, rfl, rfl, h₅⟩ := List.map_eq_append_iff.mp h₄
  obtain ⟨s'', rfl⟩ := map_value_eq_singleton_iff.mp h₅
  obtain ⟨typeParams', hTypeParams, hSame⟩ := hTypeParams.exists_placed
  obtain ⟨params', hParams, hSames⟩ :=
    (InRow.of_row hParams).exchange fun _ _ _ hOwn => ParamDecl.Spelled.exists_placed hOwn
  refine ⟨⟨⟨decl.name.value, sName⟩, typeParams', params', _⟩,
    ⟨s, s', s'', _, _, hTypeParams, hParams, rfl, rfl⟩, ?_⟩
  rw [moved, moved, hSame, hSames]
  rfl

mutual
theorem Node.Spelled.exists_placed : ∀ {node : Node} {ts : List (Located Token)},
    node.Spelled (ts.map Located.value) → ∃ node' : Node, node'.Placed ts ∧ node'.moved nowhere = node.moved nowhere
  | .text span content, ts, h => by
    generalize hValues : ts.map Located.value = values at h
    cases h
    obtain ⟨s, rfl⟩ := map_value_eq_singleton_iff.mp hValues
    exact ⟨.text s content, rfl, rfl⟩
  | .expression span name, ts, h => by
    generalize hValues : ts.map Located.value = values at h
    cases h
    obtain ⟨s, _, rfl, h₁⟩ := map_value_eq_cons_iff.mp hValues
    obtain ⟨s', rfl⟩ := map_value_eq_singleton_iff.mp h₁
    exact ⟨.expression _ name, ⟨s, s', rfl, rfl⟩, rfl⟩
  | .element span name attributes children closing, ts, h => by
    generalize hValues : ts.map Located.value = values at h
    cases h with
    | selfClosing hRow =>
      obtain ⟨s, _, rfl, h₁⟩ := map_value_eq_cons_iff.mp hValues
      obtain ⟨sName, _, rfl, h₂⟩ := map_value_eq_cons_iff.mp h₁
      obtain ⟨own, _, rfl, rfl, h₃⟩ := List.map_eq_append_iff.mp h₂
      obtain ⟨s', rfl⟩ := map_value_eq_singleton_iff.mp h₃
      obtain ⟨attributes', hAttributes, hSame⟩ :=
        (InRow.of_row hRow).exchange fun _ _ _ hOwn => Attribute.Spelled.exists_placed hOwn
      refine ⟨.element _ ⟨name.value, sName⟩ attributes' [] none, ⟨s, s', own, hAttributes, rfl, rfl, rfl⟩, ?_⟩
      rw [Node.moved, Node.moved, hSame]
      rfl
    | @closed _ _ close _ _ _ _ hRow hInner =>
      obtain ⟨s₁, _, rfl, h₁⟩ := map_value_eq_cons_iff.mp hValues
      obtain ⟨sName, _, rfl, h₂⟩ := map_value_eq_cons_iff.mp h₁
      obtain ⟨own, _, rfl, rfl, h₃⟩ := List.map_eq_append_iff.mp h₂
      obtain ⟨s₂, _, rfl, h₄⟩ := map_value_eq_cons_iff.mp h₃
      obtain ⟨inner, _, rfl, rfl, h₅⟩ := List.map_eq_append_iff.mp h₄
      obtain ⟨s₃, _, rfl, h₆⟩ := map_value_eq_cons_iff.mp h₅
      obtain ⟨sClose, _, rfl, h₇⟩ := map_value_eq_cons_iff.mp h₆
      obtain ⟨s₄, rfl⟩ := map_value_eq_singleton_iff.mp h₇
      obtain ⟨attributes', hAttributes, hSame⟩ :=
        (InRow.of_row hRow).exchange fun _ _ _ hOwn => Attribute.Spelled.exists_placed hOwn
      obtain ⟨children', hChildren, hSames⟩ := Node.Spelled.exists_placedIn hInner
      refine ⟨.element _ ⟨name.value, sName⟩ attributes' children' (some ⟨close.value, sClose⟩),
        ⟨s₁, s₂, s₃, s₄, own, inner, hAttributes, hChildren, rfl, rfl⟩, ?_⟩
      rw [Node.moved, Node.moved, hSame, hSames]
      rfl

theorem Node.Spelled.exists_placedIn : ∀ {nodes : List Node} {ts : List (Located Token)},
    Row Node.Spelled nodes (ts.map Located.value) →
      ∃ nodes', Node.PlacedIn nodes' ts ∧ Node.movedIn nowhere nodes' = Node.movedIn nowhere nodes
  | [], ts, h => by
    generalize hValues : ts.map Located.value = values at h
    cases h
    obtain rfl := List.map_eq_nil_iff.mp hValues
    exact ⟨[], rfl, rfl⟩
  | node :: rest, ts, h => by
    generalize hValues : ts.map Located.value = values at h
    cases h with
    | cons head tail =>
      obtain ⟨own, after, rfl, rfl, rfl⟩ := List.map_eq_append_iff.mp hValues
      obtain ⟨node', hNode, hSame⟩ := Node.Spelled.exists_placed head
      obtain ⟨nodes', hNodes, hSames⟩ := Node.Spelled.exists_placedIn tail
      refine ⟨node' :: nodes', ⟨own, after, hNode, hNodes, rfl⟩, ?_⟩
      rw [Node.movedIn, Node.movedIn, hSame, hSames]
end

theorem Item.Spelled.exists_placed {i : Item} (h : i.Spelled (ts.map Located.value)) :
    ∃ i' : Item, i'.Placed ts ∧ i'.moved nowhere = i.moved nowhere := by
  cases h with
  | component h =>
    obtain ⟨decl', hPlaced, hSame⟩ := h.exists_placed
    exact ⟨.component decl', hPlaced, congrArg Item.component hSame⟩
  | binding h =>
    obtain ⟨decl', hPlaced, hSame⟩ := h.exists_placed
    exact ⟨.binding decl', hPlaced, congrArg Item.binding hSame⟩
  | markup h =>
    obtain ⟨node', hPlaced, hSame⟩ := h.exists_placed
    exact ⟨.markup node', hPlaced, congrArg Item.markup hSame⟩

theorem Document.Spelled.exists_placed {d : Document} (h : d.Spelled (ts.map Located.value)) :
    ∃ d' : Document, d'.Placed ts ∧ d'.SameButSpans d := by
  obtain ⟨items', hPlaced, hSame⟩ :=
    (InRow.of_row h).exchange fun _ _ _ hOwn => Item.Spelled.exists_placed hOwn
  exact ⟨⟨items'⟩, hPlaced, congrArg Document.mk hSame⟩

end Exists

/-! ## What is placed stays in place when it is moved -/

theorem TypeExpr.Spelled.ne_nil {t : TypeExpr} {ts : List Token} (h : t.Spelled ts) : ts ≠ [] := by
  cases h <;> simp

theorem AttributeValue.Spelled.ne_nil {v : AttributeValue} {ts : List Token} (h : v.Spelled ts) : ts ≠ [] := by
  cases h with
  | type h => exact h.ne_nil
  | _ => simp

section Moved

variable {f : Nat → Nat} {ts : List (Located Token)}

theorem Located.Placed.moved {α : Type} {S : α → List Token → Prop} {a : Located α}
    (hNil : ∀ a ts, S a ts → ts ≠ []) (h : a.Placed S ts) : (a.moved f).Placed S (ts.map (Located.moved f)) := by
  obtain ⟨hSpelled, hSpan⟩ := h
  have hTokens : ts ≠ [] := by
    intro hEmpty
    exact hNil _ _ hSpelled (List.map_eq_nil_iff.mpr hEmpty)
  constructor
  · rw [Located.map_value_map_moved]
    exact hSpelled
  · rw [Span.ofTokens_moved f hTokens, ← hSpan]
    rfl

theorem Attribute.Placed.moved {a : Attribute} (h : a.Placed ts) :
    (a.moved f).Placed (ts.map (Located.moved f)) := by
  cases h with
  | bare name => exact .bare (name.moved f)
  | @valued name value s own hValue =>
    have hMoved : (value.moved f).Placed AttributeValue.Spelled (own.map (Located.moved f)) :=
      hValue.moved fun _ _ h => AttributeValue.Spelled.ne_nil h
    rw [Attribute.moved, ← Span.ofTokens_moved f (List.cons_ne_nil _ _)]
    exact @Placed.valued (name.moved f) (value.moved f) (s.moved f) _ hMoved

theorem Keyword.Declares.moved {k : Keyword} {name : Identifier} {type : Located TypeExpr} {span : Span}
    (h : k.Declares name type span ts) :
    k.Declares (name.moved f) (type.moved f) (span.moved f) (ts.map (Located.moved f)) := by
  obtain ⟨s, s', own, hType, rfl, rfl⟩ := h
  refine ⟨s.moved f, s'.moved f, own.map (Located.moved f), ?_, rfl, ?_⟩
  · exact hType.moved fun _ _ h => TypeExpr.Spelled.ne_nil h
  · exact (Span.ofTokens_moved f (List.cons_ne_nil _ _)).symm

theorem ComponentDecl.TypeParamsPlaced.moved {params : List Identifier} (h : TypeParamsPlaced params ts) :
    TypeParamsPlaced (params.map (Located.moved f)) (ts.map (Located.moved f)) := by
  have hIdentifier : ∀ (i : Identifier) own, i.Placed own →
      Identifier.Placed (i.moved f) (own.map (Located.moved f)) := by
    rintro i _ rfl
    rfl
  cases h with
  | none => exact .none
  | some s s' hParams =>
    rw [List.map_cons, List.map_append]
    exact .some (s.moved f) (s'.moved f) (hParams.moved hIdentifier)
  | trailing s s' s'' hParams =>
    rw [List.map_cons, List.map_append]
    exact .trailing (s.moved f) (s'.moved f) (s''.moved f) (hParams.moved hIdentifier)

theorem ComponentDecl.Placed.moved {decl : ComponentDecl} (h : decl.Placed ts) :
    (decl.moved f).Placed (ts.map (Located.moved f)) := by
  obtain ⟨s, s', s'', typeParams, params, hTypeParams, hParams, rfl, hSpan⟩ := h
  refine ⟨s.moved f, s'.moved f, s''.moved f, _, _, hTypeParams.moved,
    hParams.map fun p _ own hOwn => Keyword.Declares.moved hOwn, ?_, ?_⟩
  · simp only [List.map_cons, List.map_append, List.map_nil]
    rfl
  · rw [Span.ofTokens_moved f (List.cons_ne_nil _ _), ← hSpan]
    rfl

mutual
theorem Node.Placed.moved : ∀ {node : Node} {ts : List (Located Token)}, node.Placed ts →
    (node.moved f).Placed (ts.map (Located.moved f))
  | .text span content, _, h => by
    obtain rfl := h
    rfl
  | .expression span name, _, h => by
    obtain ⟨s, s', rfl, rfl⟩ := h
    exact ⟨s.moved f, s'.moved f, rfl, (Span.ofTokens_moved f (List.cons_ne_nil _ _)).symm⟩
  | .element span name attributes children none, _, h => by
    obtain ⟨s, s', own, hAttributes, rfl, rfl, rfl⟩ := h
    refine ⟨s.moved f, s'.moved f, _, hAttributes.map fun a _ own hOwn => Attribute.Placed.moved hOwn, rfl, ?_, ?_⟩
    · simp only [List.map_cons, List.map_append, List.map_nil]
      rfl
    · exact (Span.ofTokens_moved f (List.cons_ne_nil _ _)).symm
  | .element span name attributes children (some close), _, h => by
    obtain ⟨s₁, s₂, s₃, s₄, own, inner, hAttributes, hChildren, rfl, rfl⟩ := h
    refine ⟨s₁.moved f, s₂.moved f, s₃.moved f, s₄.moved f, _, _,
      hAttributes.map fun a _ own hOwn => Attribute.Placed.moved hOwn, Node.PlacedIn.moved hChildren, ?_, ?_⟩
    · simp only [List.map_cons, List.map_append, List.map_nil]
      rfl
    · exact (Span.ofTokens_moved f (List.cons_ne_nil _ _)).symm

theorem Node.PlacedIn.moved : ∀ {nodes : List Node} {ts : List (Located Token)}, Node.PlacedIn nodes ts →
    Node.PlacedIn (Node.movedIn f nodes) (ts.map (Located.moved f))
  | [], _, h => by
    obtain rfl := h
    rfl
  | node :: rest, _, h => by
    obtain ⟨own, after, hHead, hRest, rfl⟩ := h
    exact ⟨_, _, Node.Placed.moved hHead, Node.PlacedIn.moved hRest, List.map_append⟩
end

theorem Item.Placed.moved {i : Item} (h : i.Placed ts) : (i.moved f).Placed (ts.map (Located.moved f)) := by
  cases i with
  | component decl => exact ComponentDecl.Placed.moved h
  | binding decl => exact Keyword.Declares.moved h
  | markup node => exact Node.Placed.moved h

theorem Document.Placed.moved {d : Document} (h : d.Placed ts) (f : Nat → Nat) :
    (d.moved f).Placed (ts.map (Located.moved f)) :=
  InRow.map h fun _ _ _ hOwn => Item.Placed.moved hOwn

end Moved
end TypedMarkup
