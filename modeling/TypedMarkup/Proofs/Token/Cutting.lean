import TypedMarkup.Proofs.Token.Bounds

/-! # Cutting sources

A lexeme is read from its own characters alone: cut behind it, a text begins with it as before. So lexemes cut out
of a text in a row are what their own text is split into, and the tokens of a slice of a source between two tokens
are those that stand there, moved to the front.
-/
namespace TypedMarkup
set_option autoImplicit false

namespace Lexeme

theorem takeWhile_of_append {p : Char → Bool} {text more : List Char} (h : (text ++ more).takeWhile p <+: text) :
    text.takeWhile p = (text ++ more).takeWhile p := by
  rw [List.takeWhile_append] at h ⊢
  split
  case isTrue hAll =>
    rw [if_pos hAll] at h
    have hMore : more.takeWhile p = [] := by simpa using h.length_le
    rw [hMore, List.append_nil]
    exact (List.takeWhile_prefix p).eq_of_length hAll
  case isFalse => rfl

theorem dropWhile_of_append {p : Char → Bool} {text more : List Char} (h : (text ++ more).takeWhile p <+: text) :
    (text ++ more).dropWhile p = text.dropWhile p ++ more := by
  have hWhole : (text ++ more).takeWhile p ++ (text ++ more).dropWhile p = text ++ more :=
    List.takeWhile_append_dropWhile
  rw [← takeWhile_of_append h] at hWhole
  have hSame : text.takeWhile p ++ (text ++ more).dropWhile p = text.takeWhile p ++ (text.dropWhile p ++ more) := by
    rw [hWhole, ← List.append_assoc, List.takeWhile_append_dropWhile]
  exact List.append_cancel_left hSame

/-- A comment body is one wherever it stands, as it ends with its closing mark. -/
theorem commentBody?_self {text body : List Char} (h : commentBody? text = some body) :
    commentBody? body = some body := by
  fun_induction commentBody? text generalizing body with
  | case1 => cases h
  | case2 => cases h
  | case3 rest =>
    cases h
    rfl
  | case4 c rest hSlash ih =>
    obtain ⟨inner, hInner, rfl⟩ := Option.map_eq_some_iff.mp h
    simp [commentBody?, hSlash, ih hInner]
  | case5 c rest hEnd hBehind ih =>
    obtain ⟨inner, hInner, rfl⟩ := Option.map_eq_some_iff.mp h
    have hc : c ≠ '*' := ne_of_unpaired hEnd hBehind
    rw [commentBody?_cons hc, ih hInner]
    rfl

theorem quotedBody_eq_nil {text : List Char} (h : (quotedBody text).1 = []) : text = [] := by
  fun_cases quotedBody text <;> simp_all [quotedBody]

theorem quotedBody_of_append {text more : List Char} (h : (quotedBody (text ++ more)).1 <+: text) :
    quotedBody text = quotedBody (text ++ more) := by
  fun_induction quotedBody text with
  | case1 =>
    cases more with
    | nil => rfl
    | cons c more =>
      cases quotedBody_eq_nil (List.prefix_nil.mp h)
  | case2 =>
    cases more with
    | nil => rfl
    | cons c more =>
      by_cases hc : c = '\n'
      · subst hc
        rfl
      · simp [quotedBody_escaped hc] at h
  | case3 => rfl
  | case4 c rest hc body closed hRest ih =>
    rw [List.cons_append, List.cons_append, quotedBody_escaped hc] at h ⊢
    simp only [List.cons_prefix_cons, true_and] at h
    rw [← ih h, hRest]
  | case5 rest => rw [List.cons_append, quotedBody_quote]
  | case6 c rest hEnd hBehind hQuote body closed hRest ih =>
    have hBackslash : c ≠ '\\' := ne_of_unpaired hEnd hBehind
    rw [List.cons_append, quotedBody_plain hQuote hBackslash] at h ⊢
    simp only [List.cons_prefix_cons, true_and] at h
    rw [← ih h, hRest]

section Cut

variable {more : List Char}

theorem numeral_of_append {sign digits rest : List Char}
    (h : (numeral sign digits (rest ++ more)).text <+: sign ++ digits ++ rest) :
    numeral sign digits rest = numeral sign digits (rest ++ more) := by
  cases rest with
  | nil =>
    cases more with
    | nil => rfl
    | cons c more =>
      by_cases hPoint : c = '.'
      · subst hPoint
        -- With digits behind the point the numeral would be longer than what is left of it.
        cases hFraction : more.takeWhile Char.isDigit with
        | nil => simp [numeral, hFraction]
        | cons d fraction =>
          have hLength := h.length_le
          simp [numeral, hFraction] at hLength
      · simp [numeral, hPoint]
  | cons c rest =>
    by_cases hPoint : c = '.'
    · subst hPoint
      have hFraction : (rest ++ more).takeWhile Char.isDigit <+: rest := by
        cases hDigits : (rest ++ more).takeWhile Char.isDigit with
        | nil => exact List.nil_prefix
        | cons d fraction => simpa [numeral, hDigits] using h
      simp only [numeral, List.cons_append, takeWhile_of_append hFraction]
    · simp [numeral, hPoint]

theorem sign_append_digits_isPrefix (sign digits rest : List Char) :
    sign ++ digits <+: (numeral sign digits rest).text := by
  unfold numeral
  split <;> dsimp only <;> split <;> simp

theorem takeWhile_isPrefix_of_numeral (sign lead : List Char) {digits rest behind : List Char}
    (h : (numeral sign (lead ++ digits) behind).text <+: sign ++ lead ++ rest) : digits <+: rest := by
  have hWhole := (sign_append_digits_isPrefix _ _ _).trans h
  rwa [← List.append_assoc, List.prefix_append_right_inj] at hWhole

theorem numeral_takeWhile_of_append (sign lead : List Char) {rest : List Char}
    (h : (numeral sign (lead ++ (rest ++ more).takeWhile Char.isDigit)
      ((rest ++ more).dropWhile Char.isDigit)).text <+: sign ++ lead ++ rest) :
    numeral sign (lead ++ rest.takeWhile Char.isDigit) (rest.dropWhile Char.isDigit) =
      numeral sign (lead ++ (rest ++ more).takeWhile Char.isDigit) ((rest ++ more).dropWhile Char.isDigit) := by
  have hDigits := takeWhile_isPrefix_of_numeral sign lead h
  rw [← takeWhile_of_append hDigits, dropWhile_of_append hDigits] at h ⊢
  apply numeral_of_append
  rwa [List.append_assoc, List.append_assoc, List.takeWhile_append_dropWhile, ← List.append_assoc]

theorem slash_of_append {rest : List Char} (h : (slash (rest ++ more)).text <+: '/' :: rest) :
    slash rest = slash (rest ++ more) := by
  cases rest with
  | nil =>
    generalize [] ++ more = whole at h ⊢
    fun_cases slash whole with
    | case1 => simp [slash, mark, Mark.spelling] at h
    | case2 => simp [slash] at h
    | case3 _ _ hBody => simp [slash, hBody] at h
    | case4 _ hBody => simp [slash, hBody] at h
    | case5 => rfl
  | cons d rest =>
    rw [List.cons_append] at h ⊢
    by_cases hGreater : d = '>'
    · subst hGreater
      rfl
    by_cases hSlash : d = '/'
    · subst hSlash
      simp only [slash, List.cons_prefix_cons, true_and] at h ⊢
      rw [takeWhile_of_append h]
    by_cases hStar : d = '*'
    · subst hStar
      cases hBody : commentBody? (rest ++ more) with
      | some body =>
        simp only [slash, hBody, List.cons_prefix_cons, true_and] at h ⊢
        obtain ⟨after, rfl⟩ := h
        rw [commentBody?_append (commentBody?_self hBody)]
      | none =>
        simp only [slash, hBody, List.cons_prefix_cons, true_and] at h
        obtain rfl : more = [] := by simpa using h.length_le
        rw [List.append_nil]
    simp [slash, hGreater, hSlash, hStar]

/-- A lexeme is the same with what stands behind it or without. -/
theorem next_of_append {c : Char} {rest : List Char} (h : (next c (rest ++ more)).text <+: c :: rest) :
    next c rest = next c (rest ++ more) := by
  cases hBlank : isBlank c with
  | true =>
    simp only [next, hBlank, if_true, List.cons_prefix_cons, true_and] at h ⊢
    rw [takeWhile_of_append h]
  | false =>
    cases hWord : startsWord c with
    | true =>
      simp only [next, hBlank, hWord, Bool.false_eq_true, if_false, if_true, word_text, List.cons_prefix_cons,
        true_and] at h ⊢
      rw [takeWhile_of_append h]
    | false =>
      cases hDigit : c.isDigit with
      | true =>
        simp only [next, hBlank, hWord, hDigit, Bool.false_eq_true, if_false, if_true] at h ⊢
        exact numeral_takeWhile_of_append [] [c] h
      | false =>
        simp only [next, hBlank, hWord, hDigit, Bool.false_eq_true, if_false] at h ⊢
        split at h
        · -- A sign begins a numeral only if there are digits behind it.
          split at h
          case isTrue hNone =>
            have hDigits : (rest ++ more).takeWhile Char.isDigit <+: rest := by
              rw [List.isEmpty_iff.mp hNone]
              exact List.nil_prefix
            simp only [takeWhile_of_append hDigits, hNone, if_true]
          case isFalse hSome =>
            have hDigits := takeWhile_isPrefix_of_numeral ['-'] [] h
            have hNumeral := numeral_takeWhile_of_append ['-'] [] h
            simp only [List.nil_append, takeWhile_of_append hDigits] at hNumeral ⊢
            rw [if_neg hSome, if_neg hSome, hNumeral]
        · simp only [List.cons_prefix_cons, true_and] at h
          simp only [quotedBody_of_append h]
        · exact slash_of_append h
        · -- A bracket takes a slash with it, so that a slash that was cut off would have been its own.
          cases rest with
          | nil =>
            cases more with
            | nil => rfl
            | cons d more =>
              by_cases hSlash : d = '/'
              · subst hSlash
                simp [mark, Mark.spelling] at h
              · simp [hSlash]
          | cons d rest =>
            by_cases hSlash : d = '/'
            · subst hSlash
              rfl
            · simp [hSlash]
        all_goals rfl

end Cut

theorem split_eq_cons_iff {c : Char} {text rest : List Char} {l : Lexeme} {lexemes : List Lexeme}
    (hRest : c :: text = l.text ++ rest) :
    split (c :: text) = l :: lexemes ↔ next c text = l ∧ split rest = lexemes := by
  rw [split, List.cons.injEq]
  apply and_congr_right
  rintro rfl
  have hDrop := text_next_append_drop c text
  rw [hRest] at hDrop
  rw [List.append_cancel_left hDrop]

/-- The first lexemes of a text are all that is in front of the rest. -/
theorem split_of_append {text more : List Char} {lexemes behind : List Lexeme}
    (h : split (text ++ more) = lexemes ++ behind) (hText : lexemes.flatMap Lexeme.text = text) :
    split text = lexemes := by
  induction lexemes generalizing text with
  | nil =>
    obtain rfl : [] = text := hText
    rw [split]
  | cons l lexemes ih =>
    have hMem : l ∈ split (text ++ more) := by simp [h]
    obtain ⟨c, own, hOwn⟩ := List.exists_cons_of_ne_nil (text_ne_nil_of_mem_split hMem)
    rw [List.flatMap_cons] at hText
    obtain ⟨rest, rfl⟩ : ∃ rest, text = c :: rest := ⟨_, by rw [← hText, hOwn, List.cons_append]⟩
    have hWhole : c :: (rest ++ more) = l.text ++ (lexemes.flatMap Lexeme.text ++ more) := by
      rw [← List.append_assoc, hText, List.cons_append]
    obtain ⟨hNext, hBehind⟩ := (split_eq_cons_iff hWhole).mp h
    have hCut : (next c (rest ++ more)).text <+: c :: rest := ⟨_, by rw [hNext, hText]⟩
    rw [split_eq_cons_iff hText.symm, next_of_append hCut]
    exact ⟨hNext, ih hBehind rfl⟩

theorem split_flatMap_text {text : List Char} {before lexemes : List Lexeme} (h : split text = before ++ lexemes) :
    split (lexemes.flatMap Lexeme.text) = lexemes := by
  induction before generalizing text with
  | nil =>
    have hText := flatMap_text_split text
    rw [h, List.nil_append] at hText
    rw [hText, h, List.nil_append]
  | cons l before ih =>
    cases text with
    | nil =>
      rw [split] at h
      cases h
    | cons c rest =>
      rw [split] at h
      exact ih (List.cons.inj h).2

/-- Lexemes cut out of a text are those of their own text. -/
theorem split_flatMap_text_of_append {text : List Char} {before lexemes behind : List Lexeme}
    (h : split text = before ++ (lexemes ++ behind)) : split (lexemes.flatMap Lexeme.text) = lexemes := by
  have hBehind := split_flatMap_text h
  rw [List.flatMap_append] at hBehind
  exact split_of_append hBehind rfl

theorem tokensFrom_append (offset : Nat) (lexemes behind : List Lexeme) :
    tokensFrom offset (lexemes ++ behind) =
      tokensFrom offset lexemes ++ tokensFrom (offset + byteCount (lexemes.flatMap Lexeme.text)) behind := by
  induction lexemes generalizing offset with
  | nil => rfl
  | cons l lexemes ih =>
    rw [List.cons_append, tokensFrom_cons, ih, tokensFrom_cons offset l lexemes, List.flatMap_cons, byteCount_append,
      List.append_assoc, Nat.add_assoc]

section Cuts

variable {lexemes : List Lexeme} {offset : Nat} {before after : List (Located Token)} {t : Located Token}

theorem exists_cut_before (h : tokensFrom offset lexemes = before ++ t :: after) :
    ∃ ls ls', lexemes = ls ++ ls' ∧ tokensFrom offset ls = before ∧
      t.span.start = offset + byteCount (ls.flatMap Lexeme.text) ∧ tokensFrom t.span.start ls' = t :: after := by
  obtain ⟨ls, l, ls', rfl, hBefore, hToken⟩ := exists_split_of_tokensFrom_eq h
  have hStart : t.span.start = offset + byteCount (ls.flatMap Lexeme.text) := by
    rw [(tokensFrom_singleton_eq_iff.mp hToken).2]
  refine ⟨ls, l :: ls', rfl, hBefore, hStart, ?_⟩
  rw [tokensFrom_append, hBefore, ← hStart] at h
  exact List.append_cancel_left h

theorem exists_cut_behind (h : tokensFrom offset lexemes = before ++ t :: after) :
    ∃ ls ls', lexemes = ls ++ ls' ∧ tokensFrom offset ls = before ++ [t] ∧
      t.span.stop = offset + byteCount (ls.flatMap Lexeme.text) ∧ tokensFrom t.span.stop ls' = after := by
  obtain ⟨ls, l, ls', rfl, hBefore, hToken⟩ := exists_split_of_tokensFrom_eq h
  have hTokens : tokensFrom offset (ls ++ [l]) = before ++ [t] := by rw [tokensFrom_append, hBefore, hToken]
  have hStop : t.span.stop = offset + byteCount ((ls ++ [l]).flatMap Lexeme.text) := by
    rw [(tokensFrom_singleton_eq_iff.mp hToken).2, List.flatMap_append, List.flatMap_singleton, byteCount_append,
      Nat.add_assoc]
  refine ⟨ls ++ [l], ls', (List.append_cons ls l ls'), hTokens, hStop, ?_⟩
  rw [List.append_cons ls l ls', tokensFrom_append, hTokens, ← hStop, List.append_cons before t after] at h
  exact List.append_cancel_left h

end Cuts

theorem byteCount_append_inj {text text' more more' : List Char} (h : text ++ more = text' ++ more')
    (hBytes : byteCount text = byteCount text') : text = text' ∧ more = more' := by
  induction text generalizing text' with
  | nil =>
    cases text' with
    | nil => exact ⟨rfl, h⟩
    | cons c text' =>
      have hPos := byteCount_pos (List.cons_ne_nil c text')
      rw [← hBytes] at hPos
      cases hPos
  | cons c text ih =>
    cases text' with
    | nil =>
      have hPos := byteCount_pos (List.cons_ne_nil c text)
      rw [hBytes] at hPos
      cases hPos
    | cons c' text' =>
      obtain ⟨rfl, hRest⟩ := List.cons.inj h
      obtain ⟨rfl, rfl⟩ := ih hRest (Nat.add_left_cancel hBytes)
      exact ⟨rfl, rfl⟩

end Lexeme

namespace Token

variable {source : String} {own : List (Located Token)}

/-- Tokens in a row are those of lexemes in a row, which begin with the first and end with the last of them. -/
theorem exists_lexemes (hOwn : own <:+: scan source) (hNonempty : own ≠ []) :
    ∃ before lexemes behind, Lexeme.split source.toList = before ++ (lexemes ++ behind) ∧
      (Span.ofTokens own).start = Lexeme.byteCount (before.flatMap Lexeme.text) ∧
      (Span.ofTokens own).stop = (Span.ofTokens own).start + Lexeme.byteCount (lexemes.flatMap Lexeme.text) ∧
      Lexeme.tokensFrom (Span.ofTokens own).start lexemes = own := by
  obtain ⟨tsBefore, tsBehind, hScan⟩ := hOwn
  obtain ⟨first, hHead, last, hEnd, hSpan⟩ := Span.exists_ofTokens hNonempty
  obtain ⟨rest, hFirst⟩ := List.head?_eq_some_iff.mp hHead
  obtain ⟨init, hLast⟩ := List.getLast?_eq_some_iff.mp hEnd
  have hAtFirst : Lexeme.tokensFrom 0 (Lexeme.split source.toList) = tsBefore ++ first :: (rest ++ tsBehind) := by
    rw [← scan, ← hScan, hFirst, List.append_assoc, List.cons_append]
  obtain ⟨before, ls, hSplit, -, hStart, hBehind⟩ := Lexeme.exists_cut_before hAtFirst
  have hAtLast : Lexeme.tokensFrom first.span.start ls = init ++ last :: tsBehind := by
    rw [hBehind, ← List.cons_append, ← hFirst, hLast, List.append_assoc, List.singleton_append]
  obtain ⟨lexemes, behind, rfl, hOwn, hStop, -⟩ := Lexeme.exists_cut_behind hAtLast
  rw [Nat.zero_add] at hStart
  rw [← hLast] at hOwn
  rw [hSpan]
  exact ⟨before, lexemes, behind, hSplit, hStart, hStop, hOwn⟩

theorem exists_holds (hOwn : own <:+: scan source) (hNonempty : own ≠ []) :
    ∃ text, (Span.ofTokens own).Holds source text := by
  obtain ⟨before, lexemes, behind, hSplit, hStart, hStop, -⟩ := exists_lexemes hOwn hNonempty
  refine ⟨String.ofList (lexemes.flatMap Lexeme.text), Span.holds_iff.mpr ?_⟩
  refine ⟨before.flatMap Lexeme.text, behind.flatMap Lexeme.text, ?_, hStart, ?_⟩
  · rw [← Lexeme.flatMap_text_split source.toList, hSplit, List.flatMap_append, List.flatMap_append,
      String.toList_ofList]
  · rw [hStop, String.toList_ofList]

/-- The tokens of a slice from one token to another are those that the source has there. -/
theorem scan_slice {text : String} (hOwn : own <:+: scan source) (hNonempty : own ≠ [])
    (h : (Span.ofTokens own).Holds source text) :
    (scan text).map (Located.moved (· + (Span.ofTokens own).start)) = own := by
  obtain ⟨before, lexemes, behind, hSplit, hStart, hStop, hTokens⟩ := exists_lexemes hOwn hNonempty
  obtain ⟨front, back, hSource, hFront, hBack⟩ := Span.holds_iff.mp h
  rw [← Lexeme.flatMap_text_split source.toList, hSplit, List.flatMap_append, List.flatMap_append] at hSource
  obtain ⟨-, hRest⟩ := Lexeme.byteCount_append_inj hSource (hStart.symm.trans hFront)
  obtain ⟨hText, -⟩ := Lexeme.byteCount_append_inj hRest (Nat.add_left_cancel (hStop.symm.trans hBack))
  have hLexemes : Lexeme.split text.toList = lexemes := by
    rw [← hText]
    exact Lexeme.split_flatMap_text_of_append hSplit
  rw [scan, hLexemes, ← Lexeme.tokensFrom_add, Nat.zero_add, hTokens]

end Token
end TypedMarkup
