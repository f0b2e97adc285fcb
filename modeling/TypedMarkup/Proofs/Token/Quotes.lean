import TypedMarkup.Proofs.Token.LongestMatch

/-! # Texts between quotes

A text token stands on two quotes and what is between them. Its escapes are resolved from there, and none of them is
cut off by the closing quote.
-/
namespace TypedMarkup
set_option autoImplicit false

namespace Lexeme
open Token

/-- In a literal the text stands between two quotes, each on a byte of its own. -/
structure Quotes (literal inner : String) : Prop where
  opening : Span.Holds ⟨0, 1⟩ literal "\""
  closing : Span.Holds ⟨literal.utf8ByteSize - 1, literal.utf8ByteSize⟩ literal "\""
  apart : 0 < literal.utf8ByteSize - 1
  inside : Span.Holds ⟨1, literal.utf8ByteSize - 1⟩ literal inner

theorem quotes_of_toList_eq {literal : String} {body : List Char} (h : literal.toList = '"' :: (body ++ ['"'])) :
    Quotes literal (String.ofList body) := by
  have hSize : literal.utf8ByteSize = 1 + byteCount body + 1 := by
    rw [← byteCount_toList, h, byteCount, byteCount_append, ← Nat.add_assoc]
    rfl
  have hClosing : literal.utf8ByteSize - 1 = 1 + byteCount body := by rw [hSize, Nat.add_sub_cancel]
  refine ⟨?_, ?_, ?_, ?_⟩
  · exact Span.holds_iff.mpr ⟨[], body ++ ['"'], h, rfl, rfl⟩
  · refine Span.holds_iff.mpr ⟨'"' :: body, [], h, hClosing, ?_⟩
    rw [hClosing, hSize]
    rfl
  · rw [hClosing]
    omega
  · refine Span.holds_iff.mpr ⟨['"'], ['"'], ?_, rfl, ?_⟩
    · rw [String.toList_ofList, h]
      rfl
    · rw [String.toList_ofList, hClosing]

/-- Where the escapes of the text are resolved, a turn begins with `out` written and `rest` left to read. -/
inductive Unescaping (text : List Char) : List Char → List Char → Prop
  | start : Unescaping text [] text
  | plain {c : Char} {out rest : List Char} (hBackslash : c ≠ '\\') (h : Unescaping text out (c :: rest)) :
      Unescaping text (out ++ [c]) rest
  | escaped {c : Char} {out rest : List Char} (h : Unescaping text out ('\\' :: c :: rest)) :
      Unescaping text (out ++ [unescapeChar c]) rest
  | lone {out : List Char} (h : Unescaping text out ['\\']) : Unescaping text (out ++ ['\\']) []

theorem not_escapes_lone (content : List Char) : ¬ Escapes content ['\\'] := by
  intro h
  cases h with
  | plain _ hBackslash _ => exact hBackslash rfl

namespace Unescaping

variable {text out rest : List Char}

/-- What is written at a turn, and what is left will give, is what the text gives. -/
theorem unescape_eq (h : Unescaping text out rest) : unescape text = out ++ unescape rest := by
  induction h with
  | start => rfl
  | plain hBackslash _ ih => rw [ih, unescape_plain hBackslash, List.append_cons]
  | escaped _ ih => rw [ih, unescape, List.append_cons]
  | lone _ ih => rw [ih, unescape, unescape, List.append_nil]

theorem ends (h : Unescaping text out rest) : Unescaping text (unescape text) [] := by
  rw [h.unescape_eq]
  fun_induction unescape rest generalizing out with
  | case1 => rwa [List.append_nil]
  | case2 => exact h.lone
  | case3 c rest ih =>
    rw [List.append_cons]
    exact ih h.escaped
  | case4 c rest hEnd hBehind ih =>
    rw [List.append_cons]
    exact ih (h.plain (ne_of_unpaired hEnd hBehind))

/-- What is left at a turn may stand between quotes, if the whole text may. -/
theorem exists_escapes {content : List Char} (hText : Escapes content text) (h : Unescaping text out rest) :
    ∃ more, Escapes more rest := by
  -- A turn takes what stands in front there: a character by itself, or a backslash and the character behind it.
  induction h with
  | start => exact ⟨content, hText⟩
  | plain hBackslash _ ih =>
    obtain ⟨_, hMore⟩ := ih
    cases hMore with
    | plain _ _ hRest => exact ⟨_, hRest⟩
    | escaped => exact absurd rfl hBackslash
  | escaped _ ih =>
    obtain ⟨_, hMore⟩ := ih
    cases hMore with
    | plain _ hBackslash _ => exact absurd rfl hBackslash
    | escaped _ hRest => exact ⟨_, hRest⟩
  | lone _ ih =>
    obtain ⟨_, hMore⟩ := ih
    exact absurd hMore (not_escapes_lone _)

end Unescaping

theorem exists_escapes_of_mem_split {source : List Char} {l : Lexeme} (hl : l ∈ split source) {content : String}
    (h : l.meaning = .token (.text content)) :
    ∃ body, Escapes content.toList body ∧ l.text = '"' :: (body ++ ['"']) := by
  obtain ⟨before, behind, hSplit⟩ := List.append_of_mem hl
  obtain ⟨-, hMeans, hMatched⟩ := munched_of_split hSplit
  rcases hMatched with ⟨p, hWins⟩ | ⟨hStray, -⟩
  · have hMeaning := hMeans hWins
    rw [h] at hMeaning
    cases p with
    | text =>
      obtain ⟨body, own, hOwn, hText⟩ := Pattern.mem_text_iff.mp hWins.1
      rw [Pattern.meaning, hText, content_quoted, unescape_of_escapes hOwn] at hMeaning
      cases hMeaning
      exact ⟨body, by rwa [String.toList_ofList], hText⟩
    | float => exact absurd hMeaning.symm (floatMeaning_ne (by simp) _)
    | integer => exact absurd hMeaning.symm (integerMeaning_ne (by simp) _)
    | _ => cases hMeaning
  · rw [h] at hStray
    cases hStray

end Lexeme

namespace Token
open Lexeme

/-- A text token stands on a literal that begins with one quote and ends with another, and its content is what the
escapes between them resolve to. At no turn of this is a single backslash left: each that a turn begins with has a
character behind it. -/
theorem scan_text_quoted {source content : String} {span : Span} (h : ⟨.text content, span⟩ ∈ scan source) :
    ∃ literal inner : String, span.Holds source literal ∧ Quotes literal inner ∧
      content = Lexeme.content literal.toList ∧
      (literal.toList.drop 1).take (literal.toList.length - 2) = inner.toList ∧
      Unescaping inner.toList content.toList [] ∧
      ∀ out rest, Unescaping inner.toList out rest → content.toList = out ++ unescape rest ∧ rest ≠ ['\\'] := by
  obtain ⟨l, hMem, hMeaning, hHolds⟩ := exists_lexeme_of_mem_scan h
  obtain ⟨body, hBody, hText⟩ := exists_escapes_of_mem_split hMem hMeaning
  have hContent : unescape body = content.toList := unescape_of_escapes hBody
  refine ⟨String.ofList l.text, String.ofList body, hHolds, ?_, ?_, ?_, ?_, ?_⟩
  · exact quotes_of_toList_eq (by rw [String.toList_ofList, hText])
  · rw [String.toList_ofList, hText, content_quoted, hContent, String.ofList_toList]
  · simp [hText]
  · rw [String.toList_ofList, ← hContent]
    exact Unescaping.start.ends
  · rw [String.toList_ofList]
    intro out rest hTurn
    refine ⟨by rw [← hContent, hTurn.unescape_eq], ?_⟩
    rintro rfl
    obtain ⟨more, hMore⟩ := hTurn.exists_escapes hBody
    exact not_escapes_lone more hMore

/-- Three backslashes in a row, the last of them in front of a quote, and one in front of a character of two bytes. -/
theorem scan_text_quoted_backslashes :
    ⟨.text "\\\"é", ⟨3, 12⟩⟩ ∈ scan "a= \"\\\\\\\"\\é\"" ∧
    ∃ literal inner : String, Span.Holds ⟨3, 12⟩ "a= \"\\\\\\\"\\é\"" literal ∧ Quotes literal inner ∧
      ∀ out rest, Unescaping inner.toList out rest → rest ≠ ['\\'] := by
  have hToken : ⟨.text "\\\"é", ⟨3, 12⟩⟩ ∈ scan "a= \"\\\\\\\"\\é\"" := by decide +kernel
  obtain ⟨literal, inner, hHolds, hQuoted, -, -, -, hTurns⟩ := scan_text_quoted hToken
  exact ⟨hToken, literal, inner, hHolds, hQuoted, fun out rest hTurn => (hTurns out rest hTurn).2⟩

end Token
end TypedMarkup
