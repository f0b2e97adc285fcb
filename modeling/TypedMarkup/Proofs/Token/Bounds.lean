import TypedMarkup.Proofs.Token.Joining
import TypedMarkup.Proofs.Token.Names
import TypedMarkup.Proofs.Token.Order

/-! # Where tokens stand

A token stands on whole characters of its source: its span begins and ends between two of them. An identifier
stands on its own name.
-/
namespace TypedMarkup
set_option autoImplicit false

namespace Lexeme

theorem tokensFrom_singleton_eq_iff {offset : Nat} {l : Lexeme} {t : Located Token} :
    tokensFrom offset [l] = [t] ↔
      l.meaning = .token t.value ∧ t.span = ⟨offset, offset + byteCount l.text⟩ := by
  obtain ⟨text, meaning⟩ := l
  obtain ⟨value, span⟩ := t
  cases meaning <;> simp [tokensFrom, eq_comm]

/-- In front of a token the lexemes can be cut. -/
theorem exists_split_of_tokensFrom_eq {lexemes : List Lexeme} {offset : Nat} {before after : List (Located Token)}
    {t : Located Token} (h : tokensFrom offset lexemes = before ++ t :: after) :
    ∃ ls l ls', lexemes = ls ++ l :: ls' ∧ tokensFrom offset ls = before ∧
      tokensFrom (offset + byteCount (ls.flatMap Lexeme.text)) [l] = [t] := by
  induction lexemes generalizing offset before with
  | nil => simp [tokensFrom] at h
  | cons l rest ih =>
    have hRest : ∀ {own}, tokensFrom offset [l] ++ own = before →
        tokensFrom (offset + byteCount l.text) rest = own ++ t :: after →
        ∃ ls l' ls', l :: rest = ls ++ l' :: ls' ∧ tokensFrom offset ls = before ∧
          tokensFrom (offset + byteCount (ls.flatMap Lexeme.text)) [l'] = [t] := by
      rintro own rfl hOwn
      obtain ⟨ls, l', ls', rfl, rfl, hToken⟩ := ih hOwn
      refine ⟨l :: ls, l', ls', rfl, tokensFrom_cons offset l ls, ?_⟩
      rwa [List.flatMap_cons, byteCount_append, ← Nat.add_assoc]
    obtain ⟨text, meaning⟩ := l
    cases meaning with
    | token value =>
      cases before with
      | nil =>
        obtain ⟨rfl, -⟩ := List.cons.inj h
        exact ⟨[], _, rest, rfl, rfl, rfl⟩
      | cons t' before =>
        obtain ⟨rfl, hOwn⟩ := List.cons.inj h
        exact hRest rfl hOwn
    | blank => exact hRest rfl h
    | stray => exact hRest rfl h

theorem exists_split_of_mem_tokensFrom {lexemes : List Lexeme} {offset : Nat} {t : Located Token}
    (h : t ∈ tokensFrom offset lexemes) :
    ∃ before l after, lexemes = before ++ l :: after ∧ l.meaning = .token t.value ∧
      t.span.start = offset + byteCount (before.flatMap Lexeme.text) ∧
      t.span.stop = t.span.start + byteCount l.text := by
  obtain ⟨_, _, hTokens⟩ := List.append_of_mem h
  obtain ⟨before, l, after, hSplit, -, hToken⟩ := exists_split_of_tokensFrom_eq hTokens
  obtain ⟨hMeaning, hSpan⟩ := tokensFrom_singleton_eq_iff.mp hToken
  exact ⟨before, l, after, hSplit, hMeaning, by rw [hSpan], by rw [hSpan]⟩

end Lexeme

/-- The bytes that the source has there are those of the text. -/
def Span.Holds (s : Span) (source text : String) : Prop :=
  ∃ before after, source = before ++ text ++ after ∧
    s = ⟨before.utf8ByteSize, before.utf8ByteSize + text.utf8ByteSize⟩

theorem Span.holds_iff {s : Span} {source text : String} :
    s.Holds source text ↔ ∃ before after, source.toList = before ++ (text.toList ++ after) ∧
      s.start = Lexeme.byteCount before ∧ s.stop = s.start + Lexeme.byteCount text.toList := by
  constructor
  · rintro ⟨before, after, rfl, rfl⟩
    refine ⟨before.toList, after.toList, ?_, ?_, ?_⟩
    · simp
    · rw [Lexeme.byteCount_toList]
    · rw [Lexeme.byteCount_toList]
  · rintro ⟨before, after, hSource, hStart, hStop⟩
    obtain ⟨start, stop⟩ := s
    obtain rfl : start = Lexeme.byteCount before := hStart
    obtain rfl : stop = Lexeme.byteCount before + Lexeme.byteCount text.toList := hStop
    refine ⟨String.ofList before, String.ofList after, ?_, ?_⟩
    · apply String.toList_injective
      simp [hSource]
    · rw [← Lexeme.byteCount_toList, ← Lexeme.byteCount_toList, String.toList_ofList]

namespace Token

variable {source : String} {t : Located Token}

/-- A token stands on the text of a lexeme that means it. -/
theorem exists_lexeme_of_mem_scan (h : t ∈ scan source) :
    ∃ l ∈ Lexeme.split source.toList, l.meaning = .token t.value ∧ t.span.Holds source (String.ofList l.text) := by
  obtain ⟨before, l, after, hSplit, hMeaning, hStart, hStop⟩ := Lexeme.exists_split_of_mem_tokensFrom h
  rw [Nat.zero_add] at hStart
  refine ⟨l, by simp [hSplit], hMeaning, Span.holds_iff.mpr ⟨before.flatMap Lexeme.text, after.flatMap Lexeme.text, ?_⟩⟩
  rw [String.toList_ofList]
  refine ⟨?_, hStart, hStop⟩
  rw [← Lexeme.flatMap_text_split source.toList, hSplit, List.flatMap_append, List.flatMap_cons]

theorem exists_of_mem_scan (h : t ∈ scan source) :
    ∃ before text after, source.toList = before ++ (text ++ after) ∧ text ≠ [] ∧
      t.span.start = Lexeme.byteCount before ∧ t.span.stop = t.span.start + Lexeme.byteCount text := by
  obtain ⟨l, hMem, -, hHolds⟩ := exists_lexeme_of_mem_scan h
  obtain ⟨before, after, hText, hStart, hStop⟩ := Span.holds_iff.mp hHolds
  rw [String.toList_ofList] at hText hStop
  exact ⟨before, l.text, after, hText, Lexeme.text_ne_nil_of_mem_split hMem, hStart, hStop⟩

theorem stop_le_of_mem_scan (h : t ∈ scan source) : t.span.stop ≤ source.utf8ByteSize := by
  obtain ⟨before, text, after, hText, -, hStart, hStop⟩ := exists_of_mem_scan h
  rw [← Lexeme.byteCount_toList, hText, Lexeme.byteCount_append, Lexeme.byteCount_append]
  omega

/-- At the start of a token there is a character. -/
theorem exists_char_of_mem_scan (h : t ∈ scan source) :
    ∃ before c after, source.toList = before ++ c :: after ∧ t.span.start = Lexeme.byteCount before := by
  obtain ⟨before, text, after, hText, hNonempty, hStart, -⟩ := exists_of_mem_scan h
  obtain ⟨c, rest, rfl⟩ := List.exists_cons_of_ne_nil hNonempty
  exact ⟨before, c, rest ++ after, hText, hStart⟩

theorem holds_of_mem_scan {n : String} {s : Span} (h : ⟨.identifier n, s⟩ ∈ scan source) : s.Holds source n := by
  obtain ⟨l, hMem, hMeaning, hHolds⟩ := exists_lexeme_of_mem_scan h
  rwa [← (Lexeme.names_of_mem_split hMem n hMeaning).1, String.ofList_toList] at hHolds

theorem allNames_scan (source : String) : AllNames ((scan source).map Located.value) := by
  intro n h
  obtain ⟨t, ht, hValue⟩ := List.mem_map.mp h
  obtain ⟨l, hMem, hMeaning, -⟩ := exists_lexeme_of_mem_scan ht
  rw [hValue] at hMeaning
  exact (Lexeme.names_of_mem_split hMem n hMeaning).2

end Token
end TypedMarkup
