import TypedMarkup.Proofs.Document.Completions
import TypedMarkup.Proofs.Document.Reading

/-! # Documents are spelled by their sources

The readers of the grammar read the spellings of what they return. So the tokens of a source, all of them
and in their order, spell the document that the source is read as.
-/
namespace TypedMarkup
set_option autoImplicit false
open Spelling

namespace Grammar
open Reader

theorem reads_typeExpr : Reads typeExpr TypeExpr.Spelled := completes_typeExpr.reads

theorem reads_item : Reads item Item.Spelled := completes_item.reads

end Grammar

theorem TypeExpr.spelled_of_parse? {source : String} {t : TypeExpr} (h : TypeExpr.parse? source = some t) :
    t.Spelled ((Token.scan source).map Located.value) := by
  obtain ⟨⟨t', c⟩, hRead, rfl⟩ := Option.map_eq_some_iff.mp h
  obtain ⟨_, rfl, hSpelled⟩ := Grammar.reads_typeExpr.whole hRead
  exact hSpelled

namespace Document

theorem spelled_of_parse {source : String} {d : Document} (h : parse source = .ok d) :
    d.Spelled ((Token.scan source).map Located.value) := by
  obtain ⟨⟨c, hRead⟩, -⟩ := parse_eq_ok_iff.mp h
  obtain ⟨items, rfl, hSpelled⟩ := Grammar.reads_item.many.whole hRead
  exact hSpelled

theorem wellClosed_of_parse {source : String} {d : Document} (h : parse source = .ok d) : d.WellClosed := by
  obtain ⟨-, hNone⟩ := parse_eq_ok_iff.mp h
  rw [mismatches, List.flatMap_eq_nil_iff] at hNone
  intro node hNode
  obtain ⟨own, hSpelled, -⟩ := (spelled_of_parse h).exists_of_mem_markup hNode
  exact hSpelled.wellClosed (hNone node hNode)

/-- All the tokens of a source, in their order, spell the document that it is read as, and in this document
every element closes itself and has no children, or is closed by its own name. -/
theorem parse_sound {source : String} {d : Document} (h : parse source = .ok d) :
    d.Spelled ((Token.scan source).map Located.value) ∧ d.WellClosed :=
  ⟨spelled_of_parse h, wellClosed_of_parse h⟩

end Document

/-- Each choice is made in the way that leaves a token more or a token less. -/
def shelfSource : String := "component Shelf<T,> \x7b param Rows: T[] \x7d <Shelf wide T=int><br/></Shelf>"

def shelfTokens : List Token := [.keyword .component, .identifier "Shelf", .mark .less, .identifier "T", .mark .comma,
  .mark .greater, .mark .braceOpen, .keyword .param, .identifier "Rows", .mark .colon, .identifier "T",
  .mark .bracketOpen, .mark .bracketClose, .mark .braceClose, .mark .less, .identifier "Shelf",
  .identifier "wide", .identifier "T", .mark .equals, .identifier "int", .mark .greater, .mark .less,
  .identifier "br", .mark .slashGreater, .mark .lessSlash, .identifier "Shelf", .mark .greater]

theorem parse_sound_shelf : ∃ d, Document.parse shelfSource = .ok d ∧ d.items.length = 2 ∧
    d.Spelled shelfTokens ∧ d.WellClosed := by
  have hLength : ((Document.parse shelfSource).toOption.map fun d => d.items.length) = some 2 := by
    decide +kernel
  have hTokens : (Token.scan shelfSource).map Located.value = shelfTokens := by decide +kernel
  cases h : Document.parse shelfSource with
  | error e =>
    rw [h] at hLength
    cases hLength
  | ok d =>
    rw [h] at hLength
    have hSound := Document.parse_sound h
    rw [hTokens] at hSound
    exact ⟨d, rfl, Option.some.inj hLength, hSound⟩

end TypedMarkup
