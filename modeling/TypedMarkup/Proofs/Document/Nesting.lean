import TypedMarkup.Proofs.Document.Parts

/-! # How the parts of a document are nested

The parts of a document are its items and the nodes in them at any depth. The span of a part goes from the first
to the last token that writes it, and encloses what stands directly in it, one behind another.
-/
namespace TypedMarkup
set_option autoImplicit false
open Placement

variable {ts : List (Located Token)}

/-- All strictly inside of the outer span, not empty, and each ending before the next begins. -/
structure Span.Encloses (outer : Span) (inner : List Span) : Prop where
  inside : ∀ s ∈ inner, outer.start < s.start ∧ s.start < s.stop ∧ s.stop < outer.stop
  ordered : inner.Pairwise fun s s' => s.stop ≤ s'.start

theorem Span.encloses_nil (outer : Span) : outer.Encloses [] := ⟨nofun, .nil⟩

/-- Spans that stand on tokens one behind another, with tokens between them or without. -/
def Span.StandOn : List Span → List (Located Token) → Prop
  | [], _ => True
  | s :: spans, ts => ∃ own after, s.OnTokens own ∧ StandOn spans after ∧ ts = own ++ after

namespace Span.StandOn

variable {spans spans' : List Span} {ts' : List (Located Token)}

theorem nil (ts : List (Located Token)) : StandOn [] ts := trivial

theorem append (h : StandOn spans ts) (h' : StandOn spans' ts') : StandOn (spans ++ spans') (ts ++ ts') := by
  induction spans generalizing ts with
  | nil =>
    cases spans' with
    | nil => trivial
    | cons s spans' =>
      obtain ⟨own, after, hOwn, hRest, rfl⟩ := h'
      have hBefore : s.OnTokens (ts ++ own) := hOwn.mono (List.suffix_append ts own).isInfix
      exact ⟨ts ++ own, after, hBefore, hRest, (List.append_assoc ts own after).symm⟩
  | cons s spans ih =>
    obtain ⟨own, after, hOwn, hRest, rfl⟩ := h
    exact ⟨own, after ++ ts', hOwn, ih hRest, List.append_assoc own after ts'⟩

theorem behind (before : List (Located Token)) (h : StandOn spans ts) : StandOn spans (before ++ ts) :=
  (nil before).append h

theorem before (h : StandOn spans ts) (after : List (Located Token)) : StandOn spans (ts ++ after) := by
  have hAppend := h.append (nil after)
  rwa [List.append_nil] at hAppend

theorem of_inRow {α : Type} {P : α → List (Located Token) → Prop} {as : List α} (span : α → Span)
    (h : InRow P as ts) (hOn : ∀ a own, P a own → (span a).OnTokens own) : StandOn (as.map span) ts := by
  induction as generalizing ts with
  | nil => trivial
  | cons a as ih =>
    obtain ⟨own, after, hOwn, hRest, rfl⟩ := h
    exact ⟨own, after, hOn a own hOwn, ih hRest, rfl⟩

theorem onTokens_of_mem (h : StandOn spans ts) {s : Span} (hs : s ∈ spans) : s.OnTokens ts := by
  induction spans generalizing ts with
  | nil => cases hs
  | cons s' spans ih =>
    obtain ⟨own, after, hOwn, hRest, rfl⟩ := h
    rcases List.mem_cons.mp hs with rfl | hs
    · exact hOwn.mono (List.prefix_append own after).isInfix
    · exact (ih hRest hs).mono (List.suffix_append own after).isInfix

theorem ordered (h : StandOn spans ts) (hOrder : Token.InOrder ts) :
    spans.Pairwise fun s s' => s.stop ≤ s'.start := by
  induction spans generalizing ts with
  | nil => exact .nil
  | cons s spans ih =>
    obtain ⟨own, after, hOwn, hRest, rfl⟩ := h
    have hOrderOwn : Token.InOrder own := hOrder.mono (List.prefix_append own after).isInfix
    have hOrderAfter : Token.InOrder after := hOrder.mono (List.suffix_append own after).isInfix
    refine .cons ?_ (ih hRest hOrderAfter)
    intro s' hs'
    obtain ⟨-, -, last, hLast, hStop⟩ := hOwn.bounds hOrderOwn
    obtain ⟨-, ⟨first, hFirst, hStart⟩, -⟩ := (hRest.onTokens_of_mem hs').bounds hOrderAfter
    rw [hStop, hStart]
    exact (List.pairwise_append.mp hOrder.2).2.2 last hLast first hFirst

/-- What stands between the first and the last of some tokens is enclosed by their span. -/
theorem encloses {middle : List (Located Token)} (first last : Located Token) (h : StandOn spans middle)
    (hOrder : Token.InOrder ts) (hTokens : ts = first :: (middle ++ [last])) : (ofTokens ts).Encloses spans := by
  subst hTokens
  have hMiddle : Token.InOrder middle := hOrder.mono ⟨[first], [last], rfl⟩
  refine ⟨?_, h.ordered hMiddle⟩
  intro s hs
  obtain ⟨hNonempty, ⟨t, ht, hStart⟩, t', ht', hStop⟩ := (h.onTokens_of_mem hs).bounds hMiddle
  obtain ⟨hEach, hOrdered⟩ := hOrder
  have hFirst := hEach first List.mem_cons_self
  have hLast := hEach last (by simp)
  have hBefore := List.rel_of_pairwise_cons hOrdered (List.mem_append_left [last] ht)
  have hBehind := (List.pairwise_append.mp (List.Pairwise.of_cons hOrdered)).2.2 t' ht' last List.mem_cons_self
  have hSpan : ofTokens (first :: (middle ++ [last])) = ⟨first.span.start, last.span.stop⟩ := by
    rw [ofTokens, List.getLast?_cons, List.getLast?_concat]
    rfl
  rw [hSpan]
  dsimp only
  omega

end Span.StandOn

/-! ## The parts of a document -/

mutual
/-- The node itself and all nodes in it. -/
def Node.nodes : Node → List Node
  | .element span name attributes children closing =>
    .element span name attributes children closing :: Node.nodesIn children
  | .text span content => [.text span content]
  | .expression span name => [.expression span name]

def Node.nodesIn : List Node → List Node
  | [] => []
  | node :: rest => node.nodes ++ Node.nodesIn rest
end

/-- The item itself and the nodes in it, as items. -/
def Item.parts : Item → List Item
  | .markup node => node.nodes.map .markup
  | i => [i]

def Document.parts (d : Document) : List Item := d.items.flatMap Item.parts

def Item.span : Item → Span
  | .component decl => decl.span
  | .binding decl => decl.span
  | .markup node => node.span

/-- The spans directly in an item: of the attributes of an element and then of its children, and of the parameters
of a component. -/
def Item.innerSpans : Item → List Span
  | .component decl => decl.params.map ParamDecl.span
  | .markup (.element _ _ attributes children _) => attributes.map Attribute.span ++ children.map Node.span
  | _ => []

namespace Node

mutual
theorem Placed.exists_of_mem_nodes {m : Node} : ∀ {n : Node} {ts : List (Located Token)}, n.Placed ts →
    m ∈ n.nodes → ∃ own, m.Placed own ∧ own <:+: ts
  | .text _ _, ts, h, hm => by
    obtain rfl := List.mem_singleton.mp hm
    exact ⟨ts, h, List.infix_rfl⟩
  | .expression _ _, ts, h, hm => by
    obtain rfl := List.mem_singleton.mp hm
    exact ⟨ts, h, List.infix_rfl⟩
  | .element span name attributes children none, ts, h, hm => by
    rcases List.mem_cons.mp hm with rfl | hm
    · exact ⟨ts, h, List.infix_rfl⟩
    · obtain ⟨s, s', own, -, rfl, -, -⟩ := h
      cases hm
  | .element span name attributes children (some close), ts, h, hm => by
    rcases List.mem_cons.mp hm with rfl | hm
    · exact ⟨ts, h, List.infix_rfl⟩
    · obtain ⟨s₁, s₂, s₃, s₄, own, inner, -, hChildren, rfl, -⟩ := h
      obtain ⟨part, hPart, hInfix⟩ := PlacedIn.exists_of_mem_nodes hChildren hm
      refine ⟨part, hPart, hInfix.trans ?_⟩
      exact ⟨⟨.mark .less, s₁⟩ :: Identifier.token name :: (own ++ [⟨.mark .greater, s₂⟩]),
        [⟨.mark .lessSlash, s₃⟩, Identifier.token close, ⟨.mark .greater, s₄⟩], by simp⟩

theorem PlacedIn.exists_of_mem_nodes {m : Node} : ∀ {nodes : List Node} {ts : List (Located Token)},
    PlacedIn nodes ts → m ∈ nodesIn nodes → ∃ own, m.Placed own ∧ own <:+: ts
  | [], _, _, hm => by cases hm
  | n :: rest, _, h, hm => by
    obtain ⟨own, after, hHead, hRest, rfl⟩ := h
    rcases List.mem_append.mp hm with hm | hm
    · obtain ⟨part, hPart, hInfix⟩ := Placed.exists_of_mem_nodes hHead hm
      exact ⟨part, hPart, hInfix.trans (List.prefix_append own after).isInfix⟩
    · obtain ⟨part, hPart, hInfix⟩ := PlacedIn.exists_of_mem_nodes hRest hm
      exact ⟨part, hPart, hInfix.trans (List.suffix_append own after).isInfix⟩
end

mutual
theorem mismatches_subset_of_mem_nodes {m : Node} : ∀ {n : Node}, m ∈ n.nodes → m.mismatches ⊆ n.mismatches
  | .text _ _, hm => by
    obtain rfl := List.mem_singleton.mp hm
    exact List.Subset.refl _
  | .expression _ _, hm => by
    obtain rfl := List.mem_singleton.mp hm
    exact List.Subset.refl _
  | .element span name attributes children closing, hm => by
    rcases List.mem_cons.mp hm with rfl | hm
    · exact List.Subset.refl _
    · exact List.subset_append_of_subset_right _ (mismatches_subset_of_mem_nodesIn hm)

theorem mismatches_subset_of_mem_nodesIn {m : Node} : ∀ {nodes : List Node}, m ∈ nodesIn nodes →
    m.mismatches ⊆ mismatchesIn nodes
  | [], hm => by cases hm
  | n :: rest, hm => by
    rw [mismatchesIn]
    rcases List.mem_append.mp hm with hm | hm
    · exact List.subset_append_of_subset_left _ (mismatches_subset_of_mem_nodes hm)
    · exact List.subset_append_of_subset_right _ (mismatches_subset_of_mem_nodesIn hm)
end

theorem Placed.span_eq {n : Node} (h : n.Placed ts) : ts ≠ [] ∧ n.span = Span.ofTokens ts := by
  cases n with
  | text span content =>
    obtain rfl := h
    exact ⟨List.cons_ne_nil _ _, rfl⟩
  | expression span name =>
    obtain ⟨s, s', rfl, hSpan⟩ := h
    exact ⟨List.cons_ne_nil _ _, hSpan⟩
  | element span name attributes children closing =>
    cases closing with
    | none =>
      obtain ⟨s, s', own, -, -, rfl, hSpan⟩ := h
      exact ⟨List.cons_ne_nil _ _, hSpan⟩
    | some close =>
      obtain ⟨s₁, s₂, s₃, s₄, own, inner, -, -, rfl, hSpan⟩ := h
      exact ⟨List.cons_ne_nil _ _, hSpan⟩

theorem Placed.onTokens {n : Node} (h : n.Placed ts) : n.span.OnTokens ts := .whole h.span_eq

end Node

theorem Attribute.Placed.onTokens {a : Attribute} (h : a.Placed ts) : a.span.OnTokens ts := by
  cases h with
  | bare name => exact .whole ⟨List.cons_ne_nil _ _, rfl⟩
  | valued hValue => exact .whole ⟨List.cons_ne_nil _ _, rfl⟩

theorem Keyword.Declares.span_eq {k : Keyword} {name : Identifier} {type : Located TypeExpr} {span : Span}
    (h : k.Declares name type span ts) : ts ≠ [] ∧ span = Span.ofTokens ts := by
  obtain ⟨s, s', own, -, rfl, hSpan⟩ := h
  exact ⟨List.cons_ne_nil _ _, hSpan⟩

theorem ParamDecl.Placed.onTokens {p : ParamDecl} (h : p.Placed ts) : p.span.OnTokens ts :=
  .whole (Keyword.Declares.span_eq h)

namespace Item

theorem Placed.span_eq {i : Item} (h : i.Placed ts) : ts ≠ [] ∧ i.span = Span.ofTokens ts := by
  cases i with
  | component decl =>
    obtain ⟨s, s', s'', typeParams, params, -, -, rfl, hSpan⟩ := h
    exact ⟨List.cons_ne_nil _ _, hSpan⟩
  | binding decl => exact Keyword.Declares.span_eq h
  | markup node => exact Node.Placed.span_eq h

theorem Placed.encloses {i : Item} (h : i.Placed ts) (hOrder : Token.InOrder ts) :
    i.span.Encloses i.innerSpans := by
  rw [h.span_eq.2]
  cases i with
  | component decl =>
    obtain ⟨s, s', s'', typeParams, params, -, hParams, rfl, -⟩ := h
    have hInner : Span.StandOn (decl.params.map ParamDecl.span) params :=
      .of_inRow _ hParams fun _ _ hOwn => ParamDecl.Placed.onTokens hOwn
    have hMiddle := hInner.behind (Identifier.token decl.name :: (typeParams ++ [⟨.mark .braceOpen, s'⟩]))
    exact hMiddle.encloses ⟨.keyword .component, s⟩ ⟨.mark .braceClose, s''⟩ hOrder (by simp)
  | binding decl => exact Span.encloses_nil _
  | markup node =>
    cases node with
    | text span content => exact Span.encloses_nil _
    | expression span name => exact Span.encloses_nil _
    | element span name attributes children closing =>
      have hAttributes {own} (hRow : InRow Attribute.Placed attributes own) :
          Span.StandOn (attributes.map Attribute.span) (Identifier.token name :: own) :=
        (Span.StandOn.of_inRow _ hRow fun _ _ hOwn => hOwn.onTokens).behind [Identifier.token name]
      cases closing with
      | none =>
        obtain ⟨s, s', own, hRow, rfl, rfl, -⟩ := h
        rw [innerSpans, List.map_nil, List.append_nil]
        exact (hAttributes hRow).encloses ⟨.mark .less, s⟩ ⟨.mark .slashGreater, s'⟩ hOrder (by simp)
      | some close =>
        obtain ⟨s₁, s₂, s₃, s₄, own, inner, hRow, hChildren, rfl, -⟩ := h
        rw [Node.placedIn_eq_inRow] at hChildren
        have hInner : Span.StandOn (children.map Node.span) inner :=
          .of_inRow _ hChildren fun _ _ hOwn => hOwn.onTokens
        have hMiddle := ((hAttributes hRow).append (hInner.behind [⟨.mark .greater, s₂⟩])).before
          [⟨.mark .lessSlash, s₃⟩, Identifier.token close]
        exact hMiddle.encloses ⟨.mark .less, s₁⟩ ⟨.mark .greater, s₄⟩ hOrder (by simp)

end Item

namespace Document

variable {d : Document} {part : Item}

theorem Placed.exists_of_mem_parts (h : d.Placed ts) (hPart : part ∈ d.parts) :
    ∃ own, part.Placed own ∧ own <:+: ts := by
  obtain ⟨i, hi, hPart⟩ := List.mem_flatMap.mp hPart
  obtain ⟨own, hOwn, hInfix⟩ := h.exists_of_mem_items hi
  cases i with
  | component decl =>
    obtain rfl := List.mem_singleton.mp hPart
    exact ⟨own, hOwn, hInfix⟩
  | binding decl =>
    obtain rfl := List.mem_singleton.mp hPart
    exact ⟨own, hOwn, hInfix⟩
  | markup node =>
    obtain ⟨m, hm, rfl⟩ := List.mem_map.mp hPart
    obtain ⟨inner, hInner, hTrans⟩ := Node.Placed.exists_of_mem_nodes hOwn hm
    exact ⟨inner, hInner, hTrans.trans hInfix⟩

theorem mismatches_subset_of_mem_parts (hPart : part ∈ d.parts) : mismatches ⟨[part]⟩ ⊆ d.mismatches := by
  obtain ⟨i, hi, hPart⟩ := List.mem_flatMap.mp hPart
  cases i with
  | component decl =>
    obtain rfl := List.mem_singleton.mp hPart
    exact List.nil_subset _
  | binding decl =>
    obtain rfl := List.mem_singleton.mp hPart
    exact List.nil_subset _
  | markup node =>
    obtain ⟨m, hm, rfl⟩ := List.mem_map.mp hPart
    have hNode : node ∈ d.markup := List.mem_filterMap.mpr ⟨_, hi, rfl⟩
    intro names hNames
    have hOwn : names ∈ m.mismatches := by simpa [mismatches, markup] using hNames
    exact List.mem_flatMap.mpr ⟨node, hNode, Node.mismatches_subset_of_mem_nodes hm hOwn⟩

end Document
end TypedMarkup
