import Mathlib.Data.String.Basic
import TypedMarkup.Token.Scan
import TypedMarkup.Proofs.Token.Placement

/-! # Joining sources

No token goes on behind white space, and no comment to the end of the line behind a line break. So if nothing
of a source is dropped, the tokens of a source behind it on a line of its own are only moved.
-/
namespace TypedMarkup
set_option autoImplicit false

namespace Lexeme

theorem takeWhile_append_of_neg {α : Type} {p : α → Bool} {a : α} (h : p a = false) (as bs : List α) :
    (as ++ a :: bs).takeWhile p = as.takeWhile p := by
  induction as with
  | nil => simp [h]
  | cons b as ih => rw [List.cons_append, List.takeWhile_cons, List.takeWhile_cons, ih]

theorem dropWhile_append_of_neg {α : Type} {p : α → Bool} {a : α} (h : p a = false) (as bs : List α) :
    (as ++ a :: bs).dropWhile p = as.dropWhile p ++ a :: bs := by
  induction as with
  | nil => simp [h]
  | cons b as ih =>
    rw [List.cons_append, List.dropWhile_cons, List.dropWhile_cons, ih]
    split <;> rfl

theorem isBlank_iff {c : Char} : isBlank c = true ↔ c = ' ' ∨ c = '\t' ∨ c = '\n' ∨ c = '\r' := by
  simp [isBlank, or_assoc]

theorem continuesWord_of_isBlank {c : Char} (h : isBlank c = true) : continuesWord c = false := by
  rcases isBlank_iff.mp h with rfl | rfl | rfl | rfl <;> decide

theorem isDigit_of_isBlank {c : Char} (h : isBlank c = true) : c.isDigit = false := by
  rcases isBlank_iff.mp h with rfl | rfl | rfl | rfl <;> decide

/-- A character at which nothing is read as a pair is not the one that pairs begin with. -/
theorem ne_of_unpaired {c first : Char} {rest : List Char} (hEnd : c = first → rest = [] → False)
    (hBehind : ∀ d more, c = first → rest = d :: more → False) : c ≠ first := by
  intro hc
  cases rest with
  | nil => exact hEnd hc rfl
  | cons d more => exact hBehind d more hc rfl

theorem commentBody?_cons {c : Char} (hc : c ≠ '*') (rest : List Char) :
    commentBody? (c :: rest) = (commentBody? rest).map (c :: ·) := by
  rw [commentBody?] <;> simp [hc]

theorem commentBody?_append {text body : List Char} (h : commentBody? text = some body) (more : List Char) :
    commentBody? (text ++ more) = some body := by
  fun_induction commentBody? text generalizing body with
  | case1 => cases h
  | case2 => cases h
  | case3 rest => simpa [commentBody?] using h
  | case4 c rest hSlash ih =>
    obtain ⟨inner, hInner, rfl⟩ := Option.map_eq_some_iff.mp h
    simp [commentBody?, hSlash, ih hInner]
  | case5 c rest hEnd hBehind ih =>
    obtain ⟨inner, hInner, rfl⟩ := Option.map_eq_some_iff.mp h
    have hc : c ≠ '*' := ne_of_unpaired hEnd hBehind
    rw [List.cons_append, commentBody?_cons hc, ih hInner]
    rfl

@[simp] theorem quotedBody_quote (rest : List Char) : quotedBody ('"' :: rest) = (['"'], true) := by
  rw [quotedBody] <;> simp

theorem quotedBody_escaped {c : Char} (hc : c ≠ '\n') (rest : List Char) :
    quotedBody ('\\' :: c :: rest) = ('\\' :: c :: (quotedBody rest).1, (quotedBody rest).2) := by
  rw [quotedBody, if_neg hc]

theorem quotedBody_plain {c : Char} (hQuote : c ≠ '"') (hBackslash : c ≠ '\\') (rest : List Char) :
    quotedBody (c :: rest) = (c :: (quotedBody rest).1, (quotedBody rest).2) := by
  rw [quotedBody, if_neg hQuote] <;> simp [hBackslash]

theorem quotedBody_append {text : List Char} (h : (quotedBody text).2 = true) (more : List Char) :
    quotedBody (text ++ more) = quotedBody text := by
  fun_induction quotedBody text with
  | case1 => cases h
  | case2 => cases h
  | case3 => cases h
  | case4 c rest hc body closed hRest ih =>
    rw [hRest] at ih
    rw [List.cons_append, List.cons_append, quotedBody_escaped hc, ih h]
  | case5 rest => rw [List.cons_append, quotedBody_quote]
  | case6 c rest hEnd hBehind hQuote body closed hRest ih =>
    have hBackslash : c ≠ '\\' := ne_of_unpaired hEnd hBehind
    rw [hRest] at ih
    rw [List.cons_append, quotedBody_plain hQuote hBackslash, ih h]

section Append

variable {s : Char} (hs : isBlank s = true) (more : List Char)
include hs

theorem numeral_append (sign digits rest : List Char) :
    numeral sign digits (rest ++ s :: more) = numeral sign digits rest := by
  cases rest with
  | nil =>
    have hPoint : s ≠ '.' := by
      rintro rfl
      cases hs
    simp [numeral, hPoint]
  | cons c rest =>
    by_cases hPoint : c = '.'
    · subst hPoint
      simp only [numeral, List.cons_append, takeWhile_append_of_neg (isDigit_of_isBlank hs)]
    · simp [numeral, hPoint]

theorem slash_append {rest : List Char} (hStray : (slash rest).meaning ≠ .stray)
    (hEnd : s = '\n' ∨ (slash rest).meaning ≠ .blank) : slash (rest ++ s :: more) = slash rest := by
  unfold slash at hStray hEnd
  split at hStray
  case h_1 => rfl
  case h_2 rest =>
    rcases hEnd with rfl | hBlank
    · simp only [slash, List.cons_append]
      rw [takeWhile_append_of_neg (by decide)]
    · exact absurd rfl hBlank
  case h_3 rest =>
    split at hStray
    case h_1 body hBody => simp only [slash, List.cons_append, commentBody?_append hBody, hBody]
    case h_2 => exact absurd rfl hStray
  case h_4 => exact absurd rfl hStray

theorem next_append {c : Char} {rest : List Char} (hc : isBlank c = false) (hStray : (next c rest).meaning ≠ .stray)
    (hEnd : s = '\n' ∨ (next c rest).meaning ≠ .blank) : next c (rest ++ s :: more) = next c rest := by
  -- The first character tells what is read. Reading stops at the blank, or is over before it.
  cases hWord : startsWord c with
  | true => simp only [next, hc, hWord, Bool.false_eq_true, if_false, if_true,
      takeWhile_append_of_neg (continuesWord_of_isBlank hs)]
  | false =>
    cases hDigit : c.isDigit with
    | true =>
      simp only [next, hc, hWord, hDigit, Bool.false_eq_true, if_false, if_true,
        takeWhile_append_of_neg (isDigit_of_isBlank hs), dropWhile_append_of_neg (isDigit_of_isBlank hs),
        numeral_append hs]
    | false =>
      simp only [next, hc, hWord, hDigit, Bool.false_eq_true, if_false] at hStray hEnd ⊢
      split at hStray
      · simp only [takeWhile_append_of_neg (isDigit_of_isBlank hs),
          dropWhile_append_of_neg (isDigit_of_isBlank hs), numeral_append hs]
      · -- Only a text without its closing quote would go on.
        have hClosed : (quotedBody rest).2 = true := by
          cases hBody : quotedBody rest with
          | mk body closed =>
            rw [hBody] at hStray
            cases closed with
            | true => rfl
            | false => exact absurd rfl hStray
        simp only [quotedBody_append hClosed]
      · exact slash_append hs more hStray hEnd
      · cases rest with
        | nil =>
          have hSlash : s ≠ '/' := by
            rintro rfl
            cases hs
          simp [hSlash]
        | cons d rest =>
          by_cases hSlash : d = '/'
          · subst hSlash
            rfl
          · simp [hSlash]
      all_goals rfl

end Append

theorem byteCount_append (text text' : List Char) : byteCount (text ++ text') = byteCount text + byteCount text' := by
  induction text with
  | nil => simp [byteCount]
  | cons c rest ih => rw [List.cons_append, byteCount, byteCount, ih, Nat.add_assoc]

theorem byteCount_toList (source : String) : byteCount source.toList = source.utf8ByteSize := by
  rw [← String.utf8Len_toList]
  induction source.toList with
  | nil => rfl
  | cons c rest ih => rw [byteCount, String.utf8Len_cons, ih, Nat.add_comm]

theorem tokensFrom_add (k offset : Nat) (lexemes : List Lexeme) :
    tokensFrom (offset + k) lexemes = (tokensFrom offset lexemes).map (Located.moved (· + k)) := by
  induction lexemes generalizing offset with
  | nil => rfl
  | cons l rest ih =>
    obtain ⟨text, meaning⟩ := l
    have hStop : offset + k + byteCount text = offset + byteCount text + k := Nat.add_right_comm _ _ _
    cases meaning with
    | token t =>
      simp only [tokensFrom, hStop, ih, List.map_cons]
      rfl
    | blank => simp only [tokensFrom, hStop, ih]
    | stray => simp only [tokensFrom, hStop, ih]

theorem split_of_isBlank {c : Char} (hc : isBlank c = true) (rest : List Char) :
    split (c :: rest) = ⟨c :: rest.takeWhile isBlank, .blank⟩ :: split (rest.dropWhile isBlank) := by
  have hNext : next c rest = ⟨c :: rest.takeWhile isBlank, .blank⟩ := by simp only [next, hc, if_true]
  have hDrop := text_next_append_drop c rest
  rw [hNext, List.cons_append, List.cons.injEq] at hDrop
  rw [split, hNext]
  congr 2
  exact List.append_cancel_left (hDrop.2.trans List.takeWhile_append_dropWhile.symm)

/-- A blank in front of a text moves its tokens, and changes nothing else. -/
theorem tokensFrom_split_blank {c : Char} (hc : isBlank c = true) (offset : Nat) (rest : List Char) :
    tokensFrom offset (split (c :: rest)) = tokensFrom (offset + c.utf8Size) (split rest) := by
  rw [split_of_isBlank hc]
  cases rest with
  | nil => simp [split, tokensFrom]
  | cons d rest =>
    cases hd : isBlank d with
    | true =>
      rw [split_of_isBlank hd]
      simp only [tokensFrom, List.takeWhile_cons, List.dropWhile_cons, hd, if_true, byteCount, Nat.add_assoc]
    | false =>
      simp only [tokensFrom, List.takeWhile_cons, List.dropWhile_cons, hd, Bool.false_eq_true, if_false, byteCount]
      rfl

theorem tokensFrom_split_blanks {blanks : List Char} (h : ∀ c ∈ blanks, isBlank c = true) (offset : Nat)
    (text : List Char) :
    tokensFrom offset (split (blanks ++ text)) = tokensFrom (offset + byteCount blanks) (split text) := by
  induction blanks generalizing offset with
  | nil => rfl
  | cons c blanks ih =>
    rw [List.cons_append, tokensFrom_split_blank (h c List.mem_cons_self),
      ih fun d hd => h d (List.mem_cons_of_mem c hd), byteCount, Nat.add_assoc]

theorem tokensFrom_cons (offset : Nat) (l : Lexeme) (rest : List Lexeme) :
    tokensFrom offset (l :: rest) = tokensFrom offset [l] ++ tokensFrom (offset + byteCount l.text) rest := by
  obtain ⟨text, meaning⟩ := l
  cases meaning <;> rfl

section Behind

variable {s : Char} (hs : isBlank s = true) {c : Char} {rest : List Char}
  (hStray : (next c rest).meaning ≠ .stray) (hEnd : s = '\n' ∨ (next c rest).meaning ≠ .blank)
include hs hStray hEnd

/-- The first lexeme is scanned as if nothing stood behind the text. -/
theorem tokensFrom_split_next (offset : Nat) (more : List Char) :
    tokensFrom offset (split (c :: rest ++ s :: more)) =
      tokensFrom offset [next c rest] ++ tokensFrom (offset + byteCount (next c rest).text)
        (split (rest.drop ((next c rest).text.length - 1) ++ s :: more)) := by
  have hText := text_next_append_drop c rest
  cases hc : isBlank c with
  | true =>
    have hNext : next c rest = ⟨c :: rest.takeWhile isBlank, .blank⟩ := by simp only [next, hc, if_true]
    have hBlanks : ∀ d ∈ (next c rest).text, isBlank d = true := by
      rw [hNext]
      intro d hd
      rcases List.mem_cons.mp hd with rfl | hd
      · exact hc
      · exact List.all_eq_true.mp List.all_takeWhile d hd
    have hNone : tokensFrom offset [next c rest] = [] := by
      rw [hNext]
      rfl
    -- The blanks of the text and the one behind it would be one lexeme, but have no tokens either way.
    conv_lhs => rw [← hText]
    rw [List.append_assoc, tokensFrom_split_blanks hBlanks, hNone, List.nil_append]
  | false =>
    have hLength : (next c rest).text.length - 1 ≤ rest.length := by
      have hTotal := congrArg List.length hText
      rw [List.length_append, List.length_cons] at hTotal
      omega
    rw [List.cons_append, split, next_append hs more hc hStray hEnd, tokensFrom_cons,
      List.drop_append_of_le_length hLength]

end Behind

/-- If nothing of a text is dropped, its tokens are the same whatever stands behind it on a line of its own. -/
theorem tokensFrom_split_append {s : Char} (hs : isBlank s = true) {text : List Char}
    (hStray : ∀ l ∈ split text, l.meaning ≠ .stray) (hEnd : s = '\n' ∨ ∀ l ∈ split text, l.meaning ≠ .blank)
    (offset : Nat) (more : List Char) :
    tokensFrom offset (split (text ++ s :: more)) =
      tokensFrom offset (split text) ++ tokensFrom (offset + byteCount text) (split (s :: more)) := by
  fun_induction split text generalizing offset with
  | case1 => rfl
  | case2 c rest lexeme ih =>
    have hRest := ih (fun l hl => hStray l (List.mem_cons_of_mem _ hl))
      (hEnd.imp_right fun h l hl => h l (List.mem_cons_of_mem _ hl)) (offset + byteCount lexeme.text)
    have hBytes : byteCount (c :: rest) = byteCount lexeme.text + byteCount (rest.drop (lexeme.text.length - 1)) := by
      rw [← byteCount_append, ← text_next_append_drop c rest]
    rw [tokensFrom_split_next hs (hStray _ List.mem_cons_self) (hEnd.imp_right fun h => h _ List.mem_cons_self),
      hRest, tokensFrom_cons offset lexeme (split _), hBytes, List.append_assoc, Nat.add_assoc]

end Lexeme

namespace Token

/-- Nothing of the source is dropped: all of it is tokens, white space and comments. -/
def KeepsAll (source : String) : Prop := ∀ l ∈ Lexeme.split source.toList, l.meaning ≠ .stray

instance : DecidablePred KeepsAll := fun source => inferInstanceAs (Decidable (∀ l ∈ Lexeme.split source.toList, _))

theorem scan_join {source : String} (h : KeepsAll source) (more : String) :
    scan (source ++ "\n" ++ more) =
      scan source ++ (scan more).map (Located.moved (· + (source.utf8ByteSize + 1))) := by
  have hText : (source ++ "\n" ++ more).toList = source.toList ++ '\n' :: more.toList := by simp
  rw [scan, hText, Lexeme.tokensFrom_split_append (by decide) h (.inl rfl), Lexeme.tokensFrom_split_blank (by decide),
    Lexeme.byteCount_toList, Nat.add_assoc, Lexeme.tokensFrom_add]
  rfl

end Token
end TypedMarkup
