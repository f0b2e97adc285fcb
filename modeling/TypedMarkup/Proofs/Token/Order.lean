import TypedMarkup.Token.Scan

/-! # The order of tokens

Tokens stand on bytes of their own: each ends before the next begins, and none is empty.
-/
namespace TypedMarkup
set_option autoImplicit false

namespace Lexeme

theorem text_ne_nil_of_mem_split {text : List Char} {l : Lexeme} (h : l ∈ split text) : l.text ≠ [] :=
  of_mem_split (P := fun l => l.text ≠ []) next_text_ne_nil h

theorem byteCount_pos {text : List Char} (h : text ≠ []) : 0 < byteCount text := by
  obtain ⟨c, rest, rfl⟩ := List.exists_cons_of_ne_nil h
  have hChar := c.utf8Size_pos
  rw [byteCount]
  omega

theorem tokensFrom_ordered {lexemes : List Lexeme} (h : ∀ {l}, l ∈ lexemes → l.text ≠ []) (offset : Nat) :
    (∀ t ∈ tokensFrom offset lexemes, offset ≤ t.span.start ∧ t.span.start < t.span.stop) ∧
      (tokensFrom offset lexemes).Pairwise fun s t => s.span.stop ≤ t.span.start := by
  induction lexemes generalizing offset with
  | nil => exact ⟨nofun, .nil⟩
  | cons l rest ih =>
    obtain ⟨text, meaning⟩ := l
    have hPos := byteCount_pos (h List.mem_cons_self)
    obtain ⟨hAfter, hOrdered⟩ := ih (fun hl => h (List.mem_cons_of_mem _ hl)) (offset + byteCount text)
    have hBehind : ∀ t ∈ tokensFrom (offset + byteCount text) rest,
        offset ≤ t.span.start ∧ t.span.start < t.span.stop := by
      intro t ht
      have hT := hAfter t ht
      omega
    cases meaning with
    | token token =>
      rw [tokensFrom]
      constructor
      · intro t ht
        rcases List.mem_cons.mp ht with rfl | ht
        · exact ⟨Nat.le_refl _, Nat.lt_add_of_pos_right hPos⟩
        · exact hBehind t ht
      · exact .cons (fun t ht => (hAfter t ht).1) hOrdered
    | blank => exact ⟨hBehind, hOrdered⟩
    | stray => exact ⟨hBehind, hOrdered⟩

end Lexeme

namespace Token

def InOrder (tokens : List (Located Token)) : Prop :=
  (∀ t ∈ tokens, t.span.start < t.span.stop) ∧ tokens.Pairwise fun s t => s.span.stop ≤ t.span.start

theorem InOrder.mono {own tokens : List (Located Token)} (h : InOrder tokens) (hOwn : own <:+: tokens) :
    InOrder own :=
  ⟨fun t ht => h.1 t (hOwn.subset ht), h.2.sublist hOwn.sublist⟩

theorem scan_ordered (source : String) : InOrder (scan source) := by
  obtain ⟨hNonempty, hOrdered⟩ :=
    Lexeme.tokensFrom_ordered (@Lexeme.text_ne_nil_of_mem_split source.toList) 0
  exact ⟨fun t ht => (hNonempty t ht).2, hOrdered⟩

theorem scan_starts_increasing (source : String) :
    ((scan source).map fun t => t.span.start).Pairwise (· < ·) := by
  obtain ⟨hNonempty, hOrdered⟩ := scan_ordered source
  rw [List.pairwise_map]
  apply hOrdered.imp_of_mem
  intro s t hs ht hBefore
  exact Nat.lt_of_lt_of_le (hNonempty s hs) hBefore

end Token
end TypedMarkup
