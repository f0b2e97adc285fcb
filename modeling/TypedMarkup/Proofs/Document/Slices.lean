import TypedMarkup.Proofs.Document.Nesting
import TypedMarkup.Proofs.Document.Parsing
import TypedMarkup.Proofs.Token.Cutting

/-! # Slices of documents

A part of a document is read from its own text alone: the slice of the source under its span is a document with
this part as its only item, moved to the front.
-/
namespace TypedMarkup
set_option autoImplicit false
open Placement

variable {ts : List (Located Token)}

theorem Item.placed_singleton {i : Item} (h : i.Placed ts) : Document.Placed ⟨[i]⟩ ts :=
  ⟨ts, [], h, rfl, (List.append_nil ts).symm⟩

theorem Item.apart_singleton (i : Item) : Document.Apart ⟨[i]⟩ := List.isChain_singleton i

/-- Tokens write at most one item. -/
theorem Item.Placed.unique {i j : Item} (h : i.Placed ts) (h' : j.Placed ts) : i = j := by
  obtain ⟨c, hGives⟩ := Grammar.gives_document (placed_singleton h) (apart_singleton i)
  obtain ⟨c', hGives'⟩ := Grammar.gives_document (placed_singleton h') (apart_singleton j)
  cases hGives.symm.trans hGives'
  rfl

theorem Located.map_moved_sub_add {α : Type} (k : Nat) (as : List (Located α)) :
    (as.map (moved (· + k))).map (moved (· - k)) = as := by
  rw [List.map_map]
  conv_rhs => rw [← List.map_id as]
  apply List.map_congr_left
  intro a _
  obtain ⟨value, start, stop⟩ := a
  simp [moved, Span.moved]

namespace Document

/-- The parts of a document stand on tokens of their own, from the first to the last, around what is in them; and
each is read from its own slice of the source. -/
theorem parse_slice {source : String} {d : Document} (h : parse source = .ok d) {part : Item}
    (hPart : part ∈ d.parts) :
    (∃ own, own <:+: Token.scan source ∧ part.Placed own ∧
      ∃ first ∈ own.head?, ∃ last ∈ own.getLast?, part.span = ⟨first.span.start, last.span.stop⟩) ∧
    part.span.Encloses part.innerSpans ∧
    (∃ text, part.span.Holds source text) ∧
    ∀ text, part.span.Holds source text →
      parse text = .ok ⟨[part.moved (· - part.span.start)]⟩ ∧
      (part.moved (· - part.span.start)).moved (· + part.span.start) = part := by
  obtain ⟨hDocument, -, hNone⟩ := parse_eq_ok_iff_placed.mp h
  obtain ⟨own, hPlaced, hOwn⟩ := hDocument.exists_of_mem_parts hPart
  obtain ⟨hNonempty, hSpan⟩ := hPlaced.span_eq
  refine ⟨⟨own, hOwn, hPlaced, ?_⟩, hPlaced.encloses ((Token.scan_ordered source).mono hOwn), ?_, ?_⟩
  · rw [hSpan]
    exact Span.exists_ofTokens hNonempty
  · rw [hSpan]
    exact Token.exists_holds hOwn hNonempty
  · intro text hText
    have hScan : (Token.scan text).map (Located.moved (· + part.span.start)) = own := by
      rw [hSpan] at hText ⊢
      exact Token.scan_slice hOwn hNonempty hText
    have hFront : (part.moved (· - part.span.start)).Placed (Token.scan text) := by
      rw [← Located.map_moved_sub_add part.span.start (Token.scan text), hScan]
      exact hPlaced.moved
    constructor
    · refine parse_eq_ok_iff_placed.mpr ⟨Item.placed_singleton hFront, Item.apart_singleton _, ?_⟩
      have hSubset := mismatches_subset_of_mem_parts hPart
      rw [hNone, List.subset_nil] at hSubset
      have hMoved := mismatches_moved (· - part.span.start) ⟨[part]⟩
      rwa [hSubset] at hMoved
    · have hBack := hFront.moved (f := (· + part.span.start))
      rw [hScan] at hBack
      exact hBack.unique hPlaced

end Document

/-- An element in another, behind a comment and characters of two bytes, and in front of a character that is dropped. -/
def nestedSource : String := "/* é */ <a n=1>\"é\" <b x/>~ @y</a>"

def nestedElement : Node :=
  .element ⟨21, 27⟩ ⟨"b", ⟨22, 23⟩⟩ [⟨⟨"x", ⟨24, 25⟩⟩, ⟨.truth true, ⟨24, 25⟩⟩, ⟨24, 25⟩⟩] [] none

def nestedDocument : Document where
  items := [
    .markup (.element ⟨9, 35⟩ ⟨"a", ⟨10, 11⟩⟩ [⟨⟨"n", ⟨12, 13⟩⟩, ⟨.integer 1, ⟨14, 15⟩⟩, ⟨12, 15⟩⟩]
      [.text ⟨16, 20⟩ "é", nestedElement, .expression ⟨29, 31⟩ "y"] (some ⟨"a", ⟨33, 34⟩⟩))]

theorem parse_slice_nested :
    Document.parse nestedSource = .ok nestedDocument ∧ .markup nestedElement ∈ nestedDocument.parts ∧
      Span.Holds ⟨21, 27⟩ nestedSource "<b x/>" ∧
      Document.parse "<b x/>" = .ok ⟨[.markup (nestedElement.moved (· - 21))]⟩ := by
  have hParse : Document.parse nestedSource = .ok nestedDocument := by decide +kernel
  have hPart : Item.markup nestedElement ∈ nestedDocument.parts := by decide
  have hText : Span.Holds ⟨21, 27⟩ nestedSource "<b x/>" := by
    refine ⟨"/* é */ <a n=1>\"é\" ", "~ @y</a>", ?_, ?_⟩ <;> decide +kernel
  obtain ⟨-, -, -, hSlice⟩ := Document.parse_slice hParse hPart
  exact ⟨hParse, hPart, hText, (hSlice _ hText).1⟩

end TypedMarkup
