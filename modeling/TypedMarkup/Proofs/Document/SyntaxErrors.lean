import TypedMarkup.Proofs.Document.Completeness
import TypedMarkup.Proofs.Document.Parts
import TypedMarkup.Proofs.Token.Bounds
import TypedMarkup.Report.OfErrors

/-! # Where syntax errors stand

A syntax error stands on a token of the source or at its end. One at the end starts there and ends at the last
token, which is no span if anything stands behind that token; then there is no report on it.
-/
namespace TypedMarkup
set_option autoImplicit false

/-- White space, comments or dropped text behind the last token. -/
def Token.LeavesRest (source : String) : Prop := ∃ t ∈ (scan source).getLast?, t.span.stop < source.utf8ByteSize

namespace SyntaxError

/-- The end of the source is reached where another token had to stand. -/
def IsAtEnd : SyntaxError → Prop
  | unexpected none _ _ => True
  | _ => False

/-- The end of the source, and the end of its last token if there is one. -/
def endSpan (source : String) : Span where
  start := source.utf8ByteSize
  stop := ((Token.scan source).getLast?.map fun t => t.span.stop).getD source.utf8ByteSize

theorem stop_lt_start_endSpan_iff (source : String) :
    (endSpan source).stop < (endSpan source).start ↔ Token.LeavesRest source := by
  rw [endSpan, Token.LeavesRest]
  cases (Token.scan source).getLast? <;> simp

theorem stop_endSpan_le (source : String) : (endSpan source).stop ≤ source.utf8ByteSize := by
  rw [endSpan]
  cases hLast : (Token.scan source).getLast? with
  | none => exact Nat.le_refl _
  | some t => exact Token.stop_le_of_mem_scan (List.mem_of_getLast? hLast)

theorem place_ofMisses (source : String) (misses : List Miss) :
    let e := ofMisses (Token.scan source) source.utf8ByteSize misses
    (¬ e.IsAtEnd ∧ ∃ t ∈ Token.scan source, e.span = t.span) ∨ (e.IsAtEnd ∧ e.span = endSpan source) := by
  intro e
  cases hDrop : (Token.scan source).drop (Miss.furthest misses) with
  | nil =>
    have he : e = unexpected none (Miss.expected misses) (endSpan source) := by
      change ofMisses _ _ _ = _
      rw [ofMisses, hDrop]
      rfl
    rw [he]
    exact .inr ⟨trivial, rfl⟩
  | cons t rest =>
    have he : e = unexpected (some t.value) (Miss.expected misses) t.span := by
      change ofMisses _ _ _ = _
      rw [ofMisses, hDrop]
    have ht : t ∈ Token.scan source := List.mem_of_mem_drop (hDrop ▸ List.mem_cons_self)
    rw [he]
    exact .inl ⟨id, t, ht, rfl⟩

end SyntaxError

namespace Document

theorem place_of_parse_error {source : String} {errors : List SyntaxError} (h : parse source = .error errors)
    {e : SyntaxError} (he : e ∈ errors) :
    (¬ e.IsAtEnd ∧ ∃ t ∈ Token.scan source, e.span = t.span) ∨ (e.IsAtEnd ∧ e.span = SyntaxError.endSpan source) := by
  rw [parse, ofTokens] at h
  cases hRead : (Grammar.document (.ofTokens (Token.scan source))).result with
  | none =>
    rw [hRead] at h
    cases h
    obtain rfl := List.mem_singleton.mp he
    exact SyntaxError.place_ofMisses source _
  | some reply =>
    obtain ⟨d, c⟩ := reply
    rw [hRead] at h
    dsimp only at h
    split at h
    · cases h
    · cases h
      obtain ⟨names, hNames, rfl⟩ := List.mem_map.mp he
      obtain ⟨hPlaced, -⟩ := Grammar.placed_of_gives_document hRead
      exact .inl ⟨id, _, hPlaced.token_mem_closing hNames, rfl⟩

/-- An error lies within the source. It ends before it starts just if it is an error at the end of a source that
goes on behind its last token, and just then there is no report on it. -/
theorem parse_error_span {source : String} {errors : List SyntaxError} (h : parse source = .error errors)
    {e : SyntaxError} (he : e ∈ errors) :
    e.span.start ≤ source.utf8ByteSize ∧ e.span.stop ≤ source.utf8ByteSize ∧
      (e.span.start ≤ e.span.stop ↔ ¬ (e.IsAtEnd ∧ Token.LeavesRest source)) ∧
      ∀ file color, (e.report.render? file source color).isSome = true ↔ e.span.start ≤ e.span.stop := by
  have hRender : ∀ file color, (e.report.render? file source color).isSome = true ↔ e.span.start ≤ e.span.stop := by
    intro file color
    rw [Report.render?, ← Nat.not_lt]
    change (if e.span.stop < e.span.start then none else some _).isSome = true ↔ _
    split <;> simp_all
  rcases place_of_parse_error h he with ⟨hEnd, t, ht, hSpan⟩ | ⟨hEnd, hSpan⟩
  · have hStop := Token.stop_le_of_mem_scan ht
    have hOrder := (Token.scan_ordered source).1 t ht
    rw [← hSpan] at hStop hOrder
    refine ⟨by omega, hStop, ?_, hRender⟩
    exact ⟨fun _ hBoth => hEnd hBoth.1, fun _ => Nat.le_of_lt hOrder⟩
  · have hIff := SyntaxError.stop_lt_start_endSpan_iff source
    have hStop := SyntaxError.stop_endSpan_le source
    rw [← hSpan] at hIff hStop
    refine ⟨by rw [hSpan]; exact Nat.le_refl _, hStop, ?_, hRender⟩
    rw [← Nat.not_lt, hIff]
    simp [hEnd]

end Document

/-- The places of the errors in a source. -/
def errorSpans (source : String) : List Span :=
  match Document.parse source with
  | .ok _ => []
  | .error errors => errors.map SyntaxError.span

theorem exists_parse_error_of_errorSpans {source : String} {s : Span} (h : s ∈ errorSpans source) :
    ∃ errors e, Document.parse source = .error errors ∧ e ∈ errors ∧ e.span = s := by
  rw [errorSpans] at h
  split at h
  · cases h
  case h_2 errors hParse =>
    obtain ⟨e, he, hSpan⟩ := List.mem_map.mp h
    exact ⟨errors, e, hParse, he, hSpan⟩

theorem parse_error_span_open : ∃ errors e, Document.parse "<a>" = .error errors ∧ e ∈ errors ∧ e.span = ⟨3, 3⟩ ∧
    (e.report.render? "a.cmp" "<a>" false).isSome = true := by
  obtain ⟨errors, e, hParse, he, hSpan⟩ :=
    exists_parse_error_of_errorSpans (show ⟨3, 3⟩ ∈ errorSpans "<a>" by decide +kernel)
  obtain ⟨-, -, -, hRender⟩ := Document.parse_error_span hParse he
  exact ⟨errors, e, hParse, he, hSpan, (hRender "a.cmp" false).mpr (by rw [hSpan])⟩

/-- A line break behind the last token is enough. -/
theorem not_rendered_before_line_break : ∃ errors e, Document.parse "<a>\n" = .error errors ∧ e ∈ errors ∧
    e.span = ⟨4, 3⟩ ∧ e.report.render? "a.cmp" "<a>\n" false = none := by
  obtain ⟨errors, e, hParse, he, hSpan⟩ :=
    exists_parse_error_of_errorSpans (show ⟨4, 3⟩ ∈ errorSpans "<a>\n" by decide +kernel)
  refine ⟨errors, e, hParse, he, hSpan, if_pos ?_⟩
  change e.span.stop < e.span.start
  rw [hSpan]
  decide

end TypedMarkup
