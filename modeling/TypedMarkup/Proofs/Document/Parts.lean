import TypedMarkup.Proofs.Document.Placement
import TypedMarkup.Proofs.Document.Tags

/-! # Where the parts of a document stand

In a document placed on tokens every tag stands on some of them in a row, and every name that is declared or
closes an element on one of them.
-/
namespace TypedMarkup
set_option autoImplicit false
open Placement

variable {ts : List (Located Token)}

/-- The span goes from the first to the last of some tokens in a row. -/
def Span.OnTokens (s : Span) (ts : List (Located Token)) : Prop :=
  ∃ own, own ≠ [] ∧ own <:+: ts ∧ s = Span.ofTokens own

theorem Span.OnTokens.mono {s : Span} {own : List (Located Token)} (h : s.OnTokens own) (hOwn : own <:+: ts) :
    s.OnTokens ts := by
  obtain ⟨part, hPart, hInfix, hSpan⟩ := h
  exact ⟨part, hPart, hInfix.trans hOwn, hSpan⟩

theorem Span.OnTokens.whole {s : Span} (h : ts ≠ [] ∧ s = ofTokens ts) : s.OnTokens ts :=
  ⟨ts, h.1, List.infix_rfl, h.2⟩

theorem Span.OnTokens.bounds {s : Span} (h : s.OnTokens ts) (hOrder : Token.InOrder ts) :
    s.start < s.stop ∧ (∃ t ∈ ts, s.start = t.span.start) ∧ ∃ t ∈ ts, s.stop = t.span.stop := by
  obtain ⟨own, hNonempty, hOwn, rfl⟩ := h
  obtain ⟨first, hFirst, last, hLast, hSpan⟩ := exists_ofTokens hNonempty
  have hFirstMem : first ∈ own := List.mem_of_mem_head? hFirst
  have hLastMem : last ∈ own := List.mem_of_mem_getLast? hLast
  rw [hSpan]
  refine ⟨?_, ⟨first, hOwn.subset hFirstMem, rfl⟩, last, hOwn.subset hLastMem, rfl⟩
  obtain ⟨hEach, hOrdered⟩ := hOrder.mono hOwn
  have hFirstOwn := hEach first hFirstMem
  have hLastOwn := hEach last hLastMem
  obtain ⟨rest, rfl⟩ := List.head?_eq_some_iff.mp hFirst
  rcases List.mem_cons.mp hLastMem with rfl | hRest
  · exact hFirstOwn
  · have hBetween := List.rel_of_pairwise_cons hOrdered hRest
    dsimp only
    omega

theorem Identifier.onTokens {i : Identifier} (h : token i ∈ ts) : i.span.OnTokens ts := by
  obtain ⟨before, after, rfl⟩ := List.append_of_mem h
  exact ⟨[token i], List.cons_ne_nil _ _, ⟨before, after, by simp⟩, rfl⟩

namespace Node

mutual
theorem Placed.onTokens_tag {tag : Tag} : ∀ {n : Node} {ts : List (Located Token)}, n.Placed ts → tag ∈ n.tags →
    tag.span.OnTokens ts
  | .text _ _, _, _, hTag => by cases hTag
  | .expression _ _, _, _, hTag => by cases hTag
  | .element span name attributes children none, ts, h, hTag => by
    obtain ⟨s, s', own, -, rfl, rfl, rfl⟩ := h
    obtain rfl := List.mem_singleton.mp hTag
    exact ⟨_, List.cons_ne_nil _ _, List.infix_rfl, rfl⟩
  | .element span name attributes children (some close), ts, h, hTag => by
    obtain ⟨s₁, s₂, s₃, s₄, own, inner, -, hChildren, rfl, rfl⟩ := h
    rcases List.mem_cons.mp hTag with rfl | hTag
    · exact ⟨_, List.cons_ne_nil _ _, List.infix_rfl, rfl⟩
    · apply (PlacedIn.onTokens_tag hChildren hTag).mono
      exact ⟨⟨.mark .less, s₁⟩ :: Identifier.token name :: (own ++ [⟨.mark .greater, s₂⟩]),
        [⟨.mark .lessSlash, s₃⟩, Identifier.token close, ⟨.mark .greater, s₄⟩], by simp⟩

theorem PlacedIn.onTokens_tag {tag : Tag} : ∀ {nodes : List Node} {ts : List (Located Token)}, PlacedIn nodes ts →
    tag ∈ tagsIn nodes → tag.span.OnTokens ts
  | [], _, _, hTag => by cases hTag
  | n :: rest, _, h, hTag => by
    obtain ⟨own, after, hHead, hRest, rfl⟩ := h
    rcases List.mem_append.mp hTag with hTag | hTag
    · exact (Placed.onTokens_tag hHead hTag).mono (List.prefix_append own after).isInfix
    · exact (PlacedIn.onTokens_tag hRest hTag).mono (List.suffix_append own after).isInfix
end

mutual
theorem Placed.token_mem_closing {names : Identifier × Identifier} : ∀ {n : Node} {ts : List (Located Token)},
    n.Placed ts → names ∈ n.mismatches → Identifier.token names.2 ∈ ts
  | .text _ _, _, _, hNames => by cases hNames
  | .expression _ _, _, _, hNames => by cases hNames
  | .element span name attributes children none, ts, h, hNames => by
    obtain ⟨s, s', own, -, rfl, -, -⟩ := h
    cases hNames
  | .element span name attributes children (some close), ts, h, hNames => by
    obtain ⟨s₁, s₂, s₃, s₄, own, inner, -, hChildren, rfl, -⟩ := h
    rw [mismatches] at hNames
    rcases List.mem_append.mp hNames with hOwn | hInner
    · split at hOwn
      · cases hOwn
      · obtain rfl := List.mem_singleton.mp hOwn
        simp
    · simp [PlacedIn.token_mem_closing hChildren hInner]

theorem PlacedIn.token_mem_closing {names : Identifier × Identifier} : ∀ {nodes : List Node}
    {ts : List (Located Token)}, PlacedIn nodes ts → names ∈ mismatchesIn nodes → Identifier.token names.2 ∈ ts
  | [], _, _, hNames => by cases hNames
  | n :: rest, _, h, hNames => by
    obtain ⟨own, after, hHead, hRest, rfl⟩ := h
    rcases List.mem_append.mp hNames with hNames | hNames
    · exact List.mem_append_left _ (Placed.token_mem_closing hHead hNames)
    · exact List.mem_append_right _ (PlacedIn.token_mem_closing hRest hNames)
end

end Node

/-- The names that a component declares: its own, those of its type parameters, those of its parameters. -/
def ComponentDecl.declared (decl : ComponentDecl) : List Identifier :=
  decl.name :: (decl.typeParams ++ decl.params.map ParamDecl.name)

theorem ComponentDecl.TypeParamsPlaced.token_mem {params : List Identifier} (h : TypeParamsPlaced params ts)
    {i : Identifier} (hi : i ∈ params) : Identifier.token i ∈ ts := by
  have hSeries : ∀ {own}, InSeries .comma Identifier.Placed params own → Identifier.token i ∈ own := by
    intro own hParams
    obtain ⟨_, rfl, hInfix⟩ := hParams.exists_of_mem hi
    exact hInfix.subset List.mem_cons_self
  cases h with
  | none => cases hi
  | some s s' hParams => simp [hSeries hParams]
  | trailing s s' s'' hParams => simp [hSeries hParams]

theorem ComponentDecl.Placed.token_mem {decl : ComponentDecl} (h : decl.Placed ts) {i : Identifier}
    (hi : i ∈ decl.declared) : Identifier.token i ∈ ts := by
  obtain ⟨s, s', s'', typeParams, params, hTypeParams, hParams, rfl, -⟩ := h
  rcases List.mem_cons.mp hi with rfl | hi
  · simp
  rcases List.mem_append.mp hi with hi | hi
  · simp [hTypeParams.token_mem hi]
  · obtain ⟨p, hp, rfl⟩ := List.mem_map.mp hi
    obtain ⟨_, ⟨_, _, _, -, rfl, -⟩, hInfix⟩ := hParams.exists_of_mem hp
    have hMem : Identifier.token p.name ∈ params := hInfix.subset (by simp)
    simp [hMem]

namespace Document.Placed

variable {d : Document} (h : d.Placed ts)
include h

theorem exists_of_mem_items {i : Item} (hi : i ∈ d.items) : ∃ own, i.Placed own ∧ own <:+: ts :=
  InRow.exists_of_mem h hi

theorem exists_of_mem_markup {n : Node} (hn : n ∈ d.markup) : ∃ own, n.Placed own ∧ own <:+: ts := by
  obtain ⟨i, hi, hMarkup⟩ := List.mem_filterMap.mp hn
  cases i with
  | markup node =>
    cases hMarkup
    exact exists_of_mem_items h hi
  | component => cases hMarkup
  | binding => cases hMarkup

theorem onTokens_tag {tag : Tag} (hTag : tag ∈ d.tags) : tag.span.OnTokens ts := by
  rw [Document.tags, Node.tagsIn_eq_flatMap] at hTag
  obtain ⟨n, hn, hTag⟩ := List.mem_flatMap.mp hTag
  obtain ⟨own, hOwn, hInfix⟩ := exists_of_mem_markup h hn
  exact (Node.Placed.onTokens_tag hOwn hTag).mono hInfix

theorem token_mem_closing {names : Identifier × Identifier} (hNames : names ∈ d.mismatches) :
    Identifier.token names.2 ∈ ts := by
  obtain ⟨n, hn, hNames⟩ := List.mem_flatMap.mp hNames
  obtain ⟨own, hOwn, hInfix⟩ := exists_of_mem_markup h hn
  exact hInfix.subset (Node.Placed.token_mem_closing hOwn hNames)

theorem token_mem_component {decl : ComponentDecl} (hDecl : decl ∈ d.components) {i : Identifier}
    (hi : i ∈ decl.declared) : Identifier.token i ∈ ts := by
  obtain ⟨item, hItem, hComponent⟩ := List.mem_filterMap.mp hDecl
  cases item with
  | component decl' =>
    cases hComponent
    obtain ⟨own, hOwn, hInfix⟩ := exists_of_mem_items h hItem
    exact hInfix.subset (ComponentDecl.Placed.token_mem hOwn hi)
  | binding => cases hComponent
  | markup => cases hComponent

theorem token_mem_binding {decl : BindingDecl} (hDecl : decl ∈ d.bindings) : Identifier.token decl.name ∈ ts := by
  obtain ⟨item, hItem, hBinding⟩ := List.mem_filterMap.mp hDecl
  cases item with
  | binding decl' =>
    cases hBinding
    obtain ⟨own, ⟨_, _, _, -, rfl, -⟩, hInfix⟩ := exists_of_mem_items h hItem
    exact hInfix.subset (by simp)
  | component => cases hBinding
  | markup => cases hBinding

end Document.Placed
end TypedMarkup
