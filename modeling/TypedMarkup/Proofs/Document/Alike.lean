import TypedMarkup.Proofs.Document.Placement
import TypedMarkup.Proofs.Reader.Alike

/-! # Documents of the same tokens

Sources with the same tokens are read as the same document but for spans, or refused with the same errors but for
spans, wherever their tokens stand and whatever stands between them.
-/
namespace TypedMarkup
set_option autoImplicit false

namespace Grammar
open Reader

/-- Located values that are the same but for where they stand. -/
abbrev SameValue {α : Type} : Located α → Located α → Prop := SameUnder (Located.moved nowhere)

theorem sameValue_iff {α : Type} {a b : Located α} : SameValue a b ↔ a.value = b.value :=
  Located.moved_nowhere_eq_iff

theorem alike_located {α : Type} {p : Reader α} (h : Alike Eq p p) : Alike SameValue (located p) (located p) :=
  h.located.mono fun _ _ hValue => sameValue_iff.mpr hValue

theorem alike_identifier : Alike SameValue identifier identifier := alike_located Alike.name

theorem alike_typeExpr : Alike Eq typeExpr typeExpr := by
  apply Alike.fix
  intro p q hInner
  apply Alike.name.bind
  rintro head _ rfl
  apply ((hInner.separated .comma).between .less .greater).maybe.bind
  intro args args' hArgs
  have hSame : args = args' := by
    cases hArgs with
    | none => rfl
    | some hRow => rw [eq_of_forall₂_eq hRow]
  have hSuffix : Alike Eq (do mark .bracketOpen; mark .bracketClose) (do mark .bracketOpen; mark .bracketClose) :=
    (Alike.mark .bracketOpen).bind fun _ _ _ => Alike.mark .bracketClose
  apply hSuffix.many.bind
  intro suffixes suffixes' hSuffixes
  apply Alike.pure
  rw [hSame, eq_of_forall₂_eq hSuffixes]

theorem alike_typeParams : Alike (List.Forall₂ SameValue) typeParams typeParams := by
  have hParams : Alike (List.Forall₂ SameValue)
      (do
        let params ← separated .comma identifier
        let _ ← maybe (mark .comma)
        return params)
      (do
        let params ← separated .comma identifier
        let _ ← maybe (mark .comma)
        return params) := by
    apply (alike_identifier.separated .comma).bind
    intro params params' hRow
    apply (Alike.mark .comma).maybe.bind
    intro _ _ _
    exact Alike.pure hRow
  apply (hParams.between .less .greater).maybe.bind
  intro params params' hMaybe
  apply Alike.pure
  cases hMaybe with
  | none => exact .nil
  | some hRow => exact hRow

/-- A name declared with a type, whatever is made of them. -/
theorem alike_typedDecl {α : Type} (k : Keyword) (make : Identifier → Located TypeExpr → Span → α)
    {R : α → α → Prop}
    (hMake : ∀ name name' type type' s s', SameValue name name' → SameValue type type' →
      R (make name type s) (make name' type' s')) :
    let decl := spanning (do
      keyword k
      let name ← identifier
      mark .colon
      let type ← located typeExpr
      return make name type)
    Alike R decl decl := by
  apply Alike.spanning
  apply (Alike.keyword k).bind
  intro _ _ _
  apply alike_identifier.bind
  intro name name' hName
  apply (Alike.mark .colon).bind
  intro _ _ _
  apply (alike_located alike_typeExpr).bind
  intro type type' hType
  exact Alike.pure fun s s' => hMake name name' type type' s s' hName hType

theorem alike_paramDecl : Alike (SameUnder (ParamDecl.moved nowhere)) paramDecl paramDecl := by
  apply alike_typedDecl .param ParamDecl.mk
  intro name name' type type' s s' hName hType
  rw [SameUnder, ParamDecl.moved, ParamDecl.moved, hName, hType]
  rfl

theorem alike_bindingDecl : Alike (SameUnder (BindingDecl.moved nowhere)) bindingDecl bindingDecl := by
  apply alike_typedDecl .binding BindingDecl.mk
  intro name name' type type' s s' hName hType
  rw [SameUnder, BindingDecl.moved, BindingDecl.moved, hName, hType]
  rfl

theorem alike_componentDecl : Alike (SameUnder (ComponentDecl.moved nowhere)) componentDecl componentDecl := by
  apply Alike.spanning
  apply (Alike.keyword .component).bind
  intro _ _ _
  apply alike_identifier.bind
  intro name name' hName
  apply alike_typeParams.bind
  intro typeParams typeParams' hTypeParams
  apply (alike_paramDecl.many.between .braceOpen .braceClose).bind
  intro params params' hParams
  apply Alike.pure
  intro s s'
  rw [SameUnder, ComponentDecl.moved, ComponentDecl.moved, hName, forall₂_sameUnder_iff.mp hTypeParams,
    forall₂_sameUnder_iff.mp hParams]
  rfl

theorem alike_reference : Alike Eq reference reference := by
  apply (Alike.mark .atSign).bind
  intro _ _ _
  exact Alike.name

theorem alike_attributeValue : Alike Eq attributeValue attributeValue := by
  apply Alike.orElse
  · exact Alike.satisfy fun _ _ _ => rfl
  · apply Alike.orElse
    · apply alike_reference.bind
      rintro name _ rfl
      exact Alike.pure rfl
    · apply alike_typeExpr.bind
      rintro t _ rfl
      exact Alike.pure rfl

theorem alike_tagAttribute : Alike (SameUnder (Attribute.moved nowhere)) tagAttribute tagAttribute := by
  apply Alike.spanning
  apply alike_identifier.bind
  intro name name' hName
  have hValue : Alike SameValue (do mark .equals; located attributeValue) (do mark .equals; located attributeValue) :=
    (Alike.mark .equals).bind fun _ _ _ => alike_located alike_attributeValue
  apply hValue.maybe.bind
  intro value value' hMaybe
  apply Alike.pure
  intro s s'
  have hSame : SameValue (value.getD ⟨.truth true, name.span⟩) (value'.getD ⟨.truth true, name'.span⟩) := by
    cases hMaybe with
    | none => rfl
    | some hBoth => exact hBoth
  rw [SameUnder, Attribute.moved, Attribute.moved, hName, hSame]
  rfl

theorem alike_textNode : Alike (SameUnder (Node.moved nowhere)) textNode textNode := by
  apply Alike.spanning
  apply Alike.satisfy
  intro t f hPick s s'
  split at hPick
  case h_1 =>
    cases hPick
    rfl
  case h_2 => cases hPick

theorem alike_expressionNode : Alike (SameUnder (Node.moved nowhere)) expressionNode expressionNode := by
  apply Alike.spanning
  apply alike_reference.bind
  rintro name _ rfl
  exact Alike.pure fun _ _ => rfl

section Element

variable {p q : Reader Node} (h : Alike (SameUnder (Node.moved nowhere)) p q)
include h

/-- The children and the closing name of an element. -/
def SameBody (b b' : List Node × Option Identifier) : Prop :=
  Node.movedIn nowhere b.1 = Node.movedIn nowhere b'.1 ∧
    b.2.map (Located.moved nowhere) = b'.2.map (Located.moved nowhere)

theorem alike_elementBody : Alike SameBody (elementBody p) (elementBody q) := by
  apply Alike.orElse
  · apply (Alike.mark .slashGreater).bind
    intro _ _ _
    exact Alike.pure ⟨rfl, rfl⟩
  · apply (Alike.mark .greater).bind
    intro _ _ _
    apply h.many.bind
    intro children children' hChildren
    apply (alike_identifier.between .lessSlash .greater).bind
    intro close close' hClose
    apply Alike.pure
    refine ⟨?_, congrArg some hClose⟩
    rw [Node.movedIn_eq_map, Node.movedIn_eq_map]
    exact forall₂_sameUnder_iff.mp hChildren

theorem alike_elementNode : Alike (SameUnder (Node.moved nowhere)) (elementNode p) (elementNode q) := by
  apply Alike.spanning
  apply (Alike.mark .less).bind
  intro _ _ _
  apply alike_identifier.bind
  intro name name' hName
  apply alike_tagAttribute.many.bind
  intro attributes attributes' hAttributes
  apply (alike_elementBody h).bind
  rintro ⟨children, closing⟩ ⟨children', closing'⟩ ⟨hChildren, hClosing⟩
  apply Alike.pure
  intro s s'
  dsimp only at hChildren hClosing
  rw [SameUnder, Node.moved, Node.moved, hName, forall₂_sameUnder_iff.mp hAttributes, hChildren, hClosing]
  rfl

end Element

theorem alike_node : Alike (SameUnder (Node.moved nowhere)) node node := by
  apply Alike.fix
  intro p q hInner
  exact (alike_elementNode hInner).orElse (alike_textNode.orElse alike_expressionNode)

theorem alike_item : Alike (SameUnder (Item.moved nowhere)) item item := by
  apply Alike.orElse
  · apply alike_componentDecl.bind
    intro decl decl' hDecl
    exact Alike.pure (congrArg Item.component hDecl)
  · apply Alike.orElse
    · apply alike_bindingDecl.bind
      intro decl decl' hDecl
      exact Alike.pure (congrArg Item.binding hDecl)
    · apply alike_node.bind
      intro n n' hNode
      exact Alike.pure (congrArg Item.markup hNode)

theorem alike_document : Alike Document.SameButSpans document document := by
  apply alike_item.many.bind
  intro items items' hItems
  apply Alike.endOfSource.bind
  intro _ _ _
  apply Alike.pure
  exact congrArg Document.mk (forall₂_sameUnder_iff.mp hItems)

end Grammar

/-- Two results that are both values or both errors, and then related. -/
inductive SameResult {ε α : Type} (E : ε → ε → Prop) (R : α → α → Prop) : Except ε α → Except ε α → Prop
  | ok {a a' : α} (h : R a a') : SameResult E R (.ok a) (.ok a')
  | error {e e' : ε} (h : E e e') : SameResult E R (.error e) (.error e')

def SyntaxError.moved (f : Nat → Nat) : SyntaxError → SyntaxError
  | unexpected found expected span => unexpected found expected (span.moved f)
  | mismatchedClose opening closing => mismatchedClose (opening.moved f) (closing.moved f)

theorem SyntaxError.ofMisses_alike {ts ts' : List (Located Token)} (h : ts.map Located.value = ts'.map Located.value)
    (bytes bytes' : Nat) (misses : List Miss) :
    (ofMisses ts bytes misses).moved nowhere = (ofMisses ts' bytes' misses).moved nowhere := by
  have hDrop := congrArg (List.drop (Miss.furthest misses)) h
  rw [← List.map_drop, ← List.map_drop] at hDrop
  rw [ofMisses, ofMisses]
  cases hRest : ts.drop (Miss.furthest misses) with
  | nil =>
    rw [hRest, List.map_nil] at hDrop
    rw [List.map_eq_nil_iff.mp hDrop.symm]
    rfl
  | cons t rest =>
    rw [hRest] at hDrop
    obtain ⟨t', rest', hRest', hHead, -⟩ := List.map_eq_cons_iff.mp hDrop.symm
    rw [hRest']
    dsimp only
    rw [hHead]
    rfl

namespace Document

theorem SameButSpans.mismatches_eq {d d' : Document} (h : d.SameButSpans d') :
    d.mismatches.map (Node.movedNames nowhere) = d'.mismatches.map (Node.movedNames nowhere) := by
  rw [← mismatches_moved, ← mismatches_moved]
  exact congrArg mismatches h

/-- What is read of a source depends on its tokens alone, but for spans. -/
theorem parse_alike {source source' : String}
    (h : (Token.scan source).map Located.value = (Token.scan source').map Located.value) :
    SameResult (SameUnder (List.map (SyntaxError.moved nowhere))) SameButSpans (parse source) (parse source') := by
  have hReply := Grammar.alike_document (Cursor.Alike.ofTokens h)
  rw [parse, parse, ofTokens, ofTokens]
  generalize Grammar.document (.ofTokens (Token.scan source)) = reply at hReply ⊢
  generalize Grammar.document (.ofTokens (Token.scan source')) = reply' at hReply ⊢
  cases hReply with
  | refuses misses =>
    refine .error ?_
    rw [SameUnder, List.map_singleton, List.map_singleton, SyntaxError.ofMisses_alike h]
  | @reads d d' _ _ misses hSame _ =>
    -- The documents have tags that do not match in the same places of the tree, or neither has any.
    have hMismatches := hSame.mismatches_eq
    dsimp only
    cases hPairs : d.mismatches with
    | nil =>
      rw [hPairs, List.map_nil] at hMismatches
      rw [List.map_eq_nil_iff.mp hMismatches.symm]
      exact .ok hSame
    | cons names rest =>
      rw [hPairs] at hMismatches
      obtain ⟨names', rest', hPairs', -⟩ := List.map_eq_cons_iff.mp hMismatches.symm
      rw [hPairs'] at hMismatches ⊢
      refine .error ?_
      have hErrors := congrArg
        (List.map fun names : Identifier × Identifier => SyntaxError.mismatchedClose names.1 names.2) hMismatches
      rw [List.map_map, List.map_map] at hErrors
      rw [SameUnder, List.map_map, List.map_map]
      exact hErrors

end Document
end TypedMarkup
