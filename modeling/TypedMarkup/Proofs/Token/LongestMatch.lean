import TypedMarkup.Proofs.Token.Patterns

/-! # Longest matches

A lexeme is the longest text in front of the source that has a pattern, and means what its pattern says. Where no
text in front has one, it is dropped.
-/
namespace TypedMarkup
set_option autoImplicit false
open Pattern

namespace Lexeme

theorem next_digits {s digits : List Char} (hSign : s ∈ sign) (h : Token.IsNumeral digits) (rest : List Char)
    (hRest : ∀ c ∈ rest.head?, c.isDigit = false) :
    ∃ c more, s ++ digits ++ rest = c :: more ∧ next c more = numeral s digits rest := by
  have hTake : ∀ own : List Char, (∀ c ∈ own, c.isDigit = true) → (own ++ rest).takeWhile Char.isDigit = own ∧
      (own ++ rest).dropWhile Char.isDigit = rest := by
    intro own hOwn
    rw [List.takeWhile_append_of_pos hOwn, List.dropWhile_append_of_pos hOwn]
    cases rest with
    | nil => simp
    | cons c rest => simp [hRest c rfl]
  rcases mem_sign_iff.mp hSign with rfl | rfl
  · obtain ⟨c, own, rfl⟩ := List.exists_cons_of_ne_nil h.1
    obtain ⟨hc, hOwn⟩ := List.forall_mem_cons.mp h.2
    refine ⟨c, own ++ rest, rfl, ?_⟩
    simp only [next, isBlank_of_isDigit hc, startsWord_of_isDigit hc, hc, Bool.false_eq_true, if_false, if_true,
      (hTake own hOwn).1, (hTake own hOwn).2]
  · refine ⟨'-', digits ++ rest, rfl, ?_⟩
    have hNext : next '-' (digits ++ rest) =
        let own := (digits ++ rest).takeWhile Char.isDigit
        if own.isEmpty then ⟨['-'], .stray⟩ else numeral ['-'] own ((digits ++ rest).dropWhile Char.isDigit) := rfl
    rw [hNext, (hTake digits h.2).1, (hTake digits h.2).2]
    simp [h.1]

theorem numeral_point (s digits : List Char) {fraction : List Char} (h : Token.IsNumeral fraction) :
    numeral s digits ('.' :: fraction) =
      ⟨s ++ digits ++ '.' :: fraction, floatMeaning (s ++ digits ++ '.' :: fraction)⟩ := by
  have hTake : fraction.takeWhile Char.isDigit = fraction := List.takeWhile_eq_self_iff.mpr h.2
  simp [numeral, hTake, h.1]

end Lexeme

namespace Pattern

/-- A text that has a pattern is a lexeme by itself, with the meaning of the pattern. -/
theorem Wins.next {p : Pattern} {own : List Char} (h : p.Wins own) :
    ∃ c rest, own = c :: rest ∧ Lexeme.next c rest = ⟨own, p.meaning own⟩ := by
  obtain ⟨hOwn, hKeyword⟩ := h
  cases p with
  | keyword k =>
    obtain rfl : own = k.spelling.toList := hOwn
    exact (Token.Written.keyword k).next
  | mark m =>
    obtain rfl : own = m.spelling.toList := hOwn
    exact (Token.Written.mark m).next
  | identifier =>
    obtain ⟨c, rest, rfl, hStart, hRest⟩ := mem_one_mul_kstar_iff.mp hOwn
    have hNone : Keyword.ofWord? (String.ofList (c :: rest)) = none := by
      rw [Option.eq_none_iff_forall_ne_some]
      intro k hk
      apply hKeyword rfl k
      change c :: rest = k.spelling.toList
      rw [← Keyword.ofWord?_eq_some_iff.mp hk, String.toList_ofList]
    have hNext := (Token.Written.identifier ⟨c, rest, String.toList_ofList, hStart, hRest, hNone⟩).next
    rwa [String.toList_ofList] at hNext
  | text =>
    obtain ⟨body, content, hContent, rfl⟩ := mem_text_iff.mp hOwn
    refine ⟨'"', _, rfl, ?_⟩
    rw [Lexeme.next_quoted hContent, meaning, Lexeme.content_quoted, Lexeme.unescape_of_escapes hContent]
  | float =>
    obtain ⟨s, hs, digits, fraction, hDigits, hFraction, rfl⟩ := mem_float_iff.mp hOwn
    obtain ⟨c, rest, hText, hNext⟩ := Lexeme.next_digits hs hDigits ('.' :: fraction) (by simp)
    refine ⟨c, rest, hText, ?_⟩
    rw [hNext, Lexeme.numeral_point s digits hFraction]
    rfl
  | integer =>
    obtain ⟨s, hs, digits, hDigits, rfl⟩ := mem_integer_iff.mp hOwn
    obtain ⟨c, rest, hText, hNext⟩ := Lexeme.next_digits hs hDigits [] nofun
    rw [List.append_nil] at hText
    refine ⟨c, rest, hText, ?_⟩
    rw [hNext]
    rfl
  | lineComment =>
    obtain ⟨body, hBody, rfl⟩ := mem_lineComment_iff.mp hOwn
    have hTake : body.takeWhile (· ≠ '\n') = body :=
      List.takeWhile_eq_self_iff.mpr fun c hc => decide_eq_true fun hBreak => hBody (hBreak ▸ hc)
    refine ⟨'/', _, rfl, ?_⟩
    change Lexeme.slash ('/' :: body) = _
    rw [Lexeme.slash, hTake]
    rfl
  | blockComment =>
    obtain ⟨body, hBody, rfl⟩ := mem_blockComment_iff.mp hOwn
    refine ⟨'/', _, rfl, ?_⟩
    change Lexeme.slash ('*' :: body) = _
    simp only [Lexeme.slash, hBody, meaning]
  | space =>
    obtain ⟨hNil, hBlank⟩ := mem_row_iff.mp hOwn
    obtain ⟨c, rest, rfl⟩ := List.exists_cons_of_ne_nil hNil
    obtain ⟨hc, hRest⟩ := List.forall_mem_cons.mp hBlank
    refine ⟨c, rest, rfl, ?_⟩
    simp only [Lexeme.next, hc, if_true, List.takeWhile_eq_self_iff.mpr hRest, meaning]

theorem sign_append_starts {s digits rest inner : List Char} {c : Char} (hs : s ∈ sign) (h : Token.IsNumeral digits)
    (hText : c :: inner = s ++ digits ++ rest) : c = '-' ∨ c.isDigit = true := by
  obtain ⟨d, digits, rfl⟩ := List.exists_cons_of_ne_nil h.1
  rcases mem_sign_iff.mp hs with rfl | rfl
  · obtain ⟨rfl, -⟩ := List.cons.inj hText
    exact .inr (h.2 c List.mem_cons_self)
  · obtain ⟨rfl, -⟩ := List.cons.inj hText
    exact .inl rfl

/-- The characters that a text of the pattern begins with. -/
def starts : Pattern → Char → Bool
  | keyword k, c => k.spelling.toList.head? = some c
  | mark m, c => m.spelling.toList.head? = some c
  | identifier, c => Lexeme.startsWord c
  | text, c => c = '"'
  | float, c | integer, c => c = '-' || c.isDigit
  | lineComment, c | blockComment, c => c = '/'
  | space, c => Lexeme.isBlank c

theorem starts_of_mem {p : Pattern} {c : Char} {rest : List Char} (h : c :: rest ∈ p.language) : p.starts c = true := by
  cases p with
  | keyword k =>
    have hText : c :: rest = k.spelling.toList := h
    simp [starts, ← hText]
  | mark m =>
    have hText : c :: rest = m.spelling.toList := h
    simp [starts, ← hText]
  | identifier =>
    obtain ⟨_, _, hText, hStart, -⟩ := mem_one_mul_kstar_iff.mp h
    obtain ⟨rfl, -⟩ := List.cons.inj hText
    exact hStart
  | text =>
    obtain ⟨_, _, -, hText⟩ := mem_text_iff.mp h
    exact decide_eq_true (List.cons.inj hText).1
  | float =>
    obtain ⟨s, hs, digits, fraction, hDigits, -, hText⟩ := mem_float_iff.mp h
    simpa [starts] using sign_append_starts hs hDigits hText
  | integer =>
    obtain ⟨s, hs, digits, hDigits, hText⟩ := mem_integer_iff.mp h
    rw [← List.append_nil (s ++ digits)] at hText
    simpa [starts] using sign_append_starts hs hDigits hText
  | lineComment =>
    obtain ⟨_, -, hText⟩ := mem_lineComment_iff.mp h
    exact decide_eq_true (List.cons.inj hText).1
  | blockComment =>
    obtain ⟨_, -, hText⟩ := mem_blockComment_iff.mp h
    exact decide_eq_true (List.cons.inj hText).1
  | space => exact (mem_row_iff.mp h).2 c List.mem_cons_self

theorem exists_wins {p : Pattern} {own : List Char} (h : own ∈ p.language) : ∃ q : Pattern, q.Wins own := by
  by_cases hKeyword : ∃ k, own ∈ (keyword k).language
  · obtain ⟨k, hk⟩ := hKeyword
    exact ⟨keyword k, hk, nofun⟩
  · exact ⟨p, h, fun _ k hk => hKeyword ⟨k, hk⟩⟩

/-- No text in front of a source that has a pattern is longer than its first lexeme. -/
theorem length_le_next {p : Pattern} {own : List Char} (h : own ∈ p.language) {c : Char} {rest : List Char}
    (hFront : own <+: c :: rest) : own.length ≤ (Lexeme.next c rest).text.length := by
  obtain ⟨q, hWins⟩ := exists_wins h
  obtain ⟨c', inner, rfl, hNext⟩ := hWins.next
  obtain ⟨more, hMore⟩ := hFront
  rw [List.cons_append] at hMore
  obtain ⟨rfl, rfl⟩ := List.cons.inj hMore
  -- A shorter lexeme would lie in the text, and so be the first lexeme of the text by itself.
  by_contra hShort
  have hCut : (Lexeme.next c' (inner ++ more)).text <+: c' :: inner :=
    List.prefix_of_prefix_length_le (Lexeme.next_isPrefix _ _) ⟨more, rfl⟩ (Nat.le_of_not_le hShort)
  rw [← Lexeme.next_of_append hCut, hNext] at hShort
  exact hShort (Nat.le_refl _)

end Pattern

namespace Lexeme

/-- The text of the lexeme has a pattern, if it is a token. -/
def Patterned (l : Lexeme) : Prop := ∀ t, l.meaning = .token t → ∃ p : Pattern, l.text ∈ p.language

theorem patterned_mark (m : Mark) : (mark m).Patterned := fun _ _ => ⟨.mark m, rfl⟩

theorem patterned_blank (own : List Char) : (Lexeme.mk own .blank).Patterned := by
  rintro _ ⟨⟩

theorem patterned_stray (own : List Char) : (Lexeme.mk own .stray).Patterned := by
  rintro _ ⟨⟩

theorem patterned_numeral {s digits : List Char} (hSign : s ∈ sign) (h : Token.IsNumeral digits) (rest : List Char) :
    (numeral s digits rest).Patterned := by
  have hInteger : s ++ digits ∈ integer.language := mem_integer_iff.mpr ⟨s, hSign, digits, h, rfl⟩
  have hFloat : ∀ fraction, Token.IsNumeral fraction → s ++ digits ++ '.' :: fraction ∈ float.language :=
    fun fraction hFraction => mem_float_iff.mpr ⟨s, hSign, digits, fraction, h, hFraction, rfl⟩
  unfold numeral
  split
  case h_1 rest =>
    dsimp only
    split
    case isTrue => exact fun _ _ => ⟨_, hInteger⟩
    case isFalse hSome => exact fun _ _ => ⟨_, hFloat _ (isNumeral_takeWhile (by simpa using hSome))⟩
  case h_2 => exact fun _ _ => ⟨_, hInteger⟩

theorem exists_escapes_of_closed {rest : List Char} (h : (quotedBody rest).2 = true) :
    ∃ body content, (quotedBody rest).1 = body ++ ['"'] ∧ Token.Escapes content body := by
  fun_induction quotedBody rest with
  | case1 => cases h
  | case2 => cases h
  | case3 => cases h
  | case4 c rest hBreak own closed hOwn ih =>
    rw [hOwn] at ih
    obtain ⟨body, content, hBody, hContent⟩ := ih h
    exact ⟨'\\' :: c :: body, _, congrArg (fun own => '\\' :: c :: own) hBody, .escaped hBreak hContent⟩
  | case5 => exact ⟨[], [], rfl, .nil⟩
  | case6 c rest hEnd hBehind hQuote own closed hOwn ih =>
    have hBackslash : c ≠ '\\' := ne_of_unpaired hEnd hBehind
    rw [hOwn] at ih
    obtain ⟨body, content, hBody, hContent⟩ := ih h
    exact ⟨c :: body, _, congrArg (List.cons c) hBody, .plain hQuote hBackslash hContent⟩

theorem patterned_slash (rest : List Char) : (slash rest).Patterned := by
  unfold slash
  split
  case h_1 => exact patterned_mark .slashGreater
  case h_2 => exact patterned_blank _
  case h_3 =>
    split
    case h_1 => exact patterned_blank _
    case h_2 => exact patterned_stray _
  case h_4 => exact patterned_stray _

theorem patterned_next (c : Char) (rest : List Char) : (next c rest).Patterned := by
  apply next_cases
  case space => exact fun _ => patterned_blank _
  case word =>
    intro hWord _ _
    rw [word_text]
    exact ⟨.identifier, mem_one_mul_kstar_iff.mpr ⟨c, _, rfl, hWord, List.all_eq_true.mp List.all_takeWhile⟩⟩
  case numeral => exact fun _ _ _ hSign hDigits => patterned_numeral (mem_sign_iff.mpr hSign) hDigits _
  case quote =>
    intro t h
    cases hClosed : (quotedBody rest).2 with
    | true =>
      obtain ⟨body, content, hBody, hContent⟩ := exists_escapes_of_closed hClosed
      exact ⟨.text, mem_text_iff.mpr ⟨body, content, hContent, congrArg (List.cons '"') hBody⟩⟩
    | false =>
      rw [hClosed] at h
      cases h
  case slash => exact patterned_slash rest
  case mark => exact patterned_mark
  case lone => exact fun _ _ _ _ _ => patterned_stray _

/-- The lexeme is the longest text in front of the source that has a pattern, and means what its pattern says; or it
is dropped, and no text in front has a pattern. -/
structure Munched (l : Lexeme) (behind : List Char) : Prop where
  longest : ∀ {p : Pattern} {own : List Char}, own ∈ p.language → own <+: l.text ++ behind →
    own.length ≤ l.text.length
  meaning_eq : ∀ {p : Pattern}, p.Wins l.text → l.meaning = p.meaning l.text
  matched : (∃ p : Pattern, p.Wins l.text) ∨
    l.meaning = .stray ∧ ∀ (p : Pattern) (own : List Char), own ∈ p.language → ¬ own <+: l.text ++ behind

theorem blank_pattern {own : List Char} (h : Blank own) (hNil : own ≠ []) : ∃ p : Pattern, own ∈ p.language := by
  cases h with
  | space h => exact ⟨.space, mem_row_iff.mpr ⟨hNil, h⟩⟩
  | line h => exact ⟨.lineComment, mem_lineComment_iff.mpr ⟨_, h, rfl⟩⟩
  | block h => exact ⟨.blockComment, mem_blockComment_iff.mpr ⟨_, h, rfl⟩⟩

section Dropped

variable {p : Pattern} {c : Char} {body rest : List Char}

theorem not_mem_of_lone (hBlank : isBlank c = false) (hWord : startsWord c = false) (hDigit : c.isDigit = false)
    (hMark : ∀ m : Mark, m.spelling.toList ≠ [c]) : [c] ∉ p.language := by
  intro h
  have hStarts := starts_of_mem h
  cases p with
  | keyword k =>
    have hText : [c] = k.spelling.toList := h
    cases k <;> cases congrArg List.length hText
  | mark m => exact hMark m (Eq.symm h)
  | identifier => exact absurd hStarts (by simp [starts, hWord])
  | text =>
    obtain ⟨body, _, -, hText⟩ := mem_text_iff.mp h
    simp at hText
  | float =>
    obtain ⟨s, -, digits, fraction, hDigits, -, hText⟩ := mem_float_iff.mp h
    have hLength := congrArg List.length hText
    have hPos := List.length_pos_iff.mpr hDigits.1
    simp only [List.length_append, List.length_cons, List.length_nil] at hLength
    omega
  | integer =>
    obtain ⟨s, hs, digits, hDigits, hText⟩ := mem_integer_iff.mp h
    obtain ⟨d, digits, rfl⟩ := List.exists_cons_of_ne_nil hDigits.1
    rcases mem_sign_iff.mp hs with rfl | rfl
    · obtain ⟨rfl, -⟩ := List.cons.inj hText
      exact absurd (hDigits.2 c List.mem_cons_self) (by simp [hDigit])
    · cases hText
  | lineComment =>
    obtain ⟨_, -, hText⟩ := mem_lineComment_iff.mp h
    cases hText
  | blockComment =>
    obtain ⟨_, -, hText⟩ := mem_blockComment_iff.mp h
    cases hText
  | space => exact absurd hStarts (by simp [starts, hBlank])

theorem not_mem_of_open (h : quotedBody body = (body, false)) (hFront : rest <+: body) : '"' :: rest ∉ p.language := by
  intro hOwn
  have hStarts := starts_of_mem hOwn
  cases p with
  | text =>
    obtain ⟨inner, _, hContent, hText⟩ := mem_text_iff.mp hOwn
    obtain ⟨-, rfl⟩ := List.cons.inj hText
    obtain ⟨more, rfl⟩ := hFront
    have hClosed := quotedBody_of_escapes hContent
    rw [quotedBody_append (by rw [hClosed]), hClosed] at h
    cases (Prod.mk.inj h).2
  | keyword k => cases k <;> exact absurd hStarts (by decide)
  | mark m => cases m <;> exact absurd hStarts (by decide)
  | _ => exact absurd hStarts (by decide)

theorem not_mem_of_unclosed (h : commentBody? body = none) (hFront : rest <+: '*' :: body) :
    '/' :: rest ∉ p.language := by
  intro hOwn
  have hStarts := starts_of_mem hOwn
  cases p with
  | mark m =>
    cases m with
    | slashGreater =>
      obtain ⟨-, rfl⟩ := List.cons.inj (show '/' :: rest = ['/', '>'] from hOwn)
      obtain ⟨_, hMore⟩ := hFront
      cases hMore
    | _ => exact absurd hStarts (by decide)
  | lineComment =>
    obtain ⟨inner, -, hText⟩ := mem_lineComment_iff.mp hOwn
    obtain ⟨-, rfl⟩ := List.cons.inj hText
    obtain ⟨_, hMore⟩ := hFront
    cases hMore
  | blockComment =>
    obtain ⟨inner, hInner, hText⟩ := mem_blockComment_iff.mp hOwn
    obtain ⟨-, rfl⟩ := List.cons.inj hText
    obtain ⟨more, rfl⟩ := (List.cons_prefix_cons.mp hFront).2
    rw [commentBody?_append hInner] at h
    cases h
  | keyword k => cases k <;> exact absurd hStarts (by decide)
  | _ => exact absurd hStarts (by decide)

/-- Text that is dropped is an integer beyond 64 bits, or nothing in front of it has a pattern. -/
theorem dropped_pattern {own : List Char} (h : Dropped own) :
    own ∈ integer.language ∨ ∀ (p : Pattern) (front : List Char), front ∈ p.language → ¬ front <+: own := by
  have hCons : ∀ {p : Pattern} {front own : List Char} {c : Char}, front ∈ p.language → front <+: c :: own →
      ∃ inner, front = c :: inner ∧ inner <+: own := by
    intro p front own c hFront hPrefix
    obtain ⟨_, hWins⟩ := exists_wins hFront
    obtain ⟨d, inner, rfl, -⟩ := hWins.next
    obtain ⟨rfl, hInner⟩ := List.cons_prefix_cons.mp hPrefix
    exact ⟨inner, rfl, hInner⟩
  cases h with
  | lone hBlank hWord hDigit hQuote hMark =>
    refine .inr fun p front hFront hPrefix => ?_
    obtain ⟨inner, rfl, hInner⟩ := hCons hFront hPrefix
    obtain rfl := List.prefix_nil.mp hInner
    exact not_mem_of_lone hBlank hWord hDigit hMark hFront
  | quote h =>
    refine .inr fun p front hFront hPrefix => ?_
    obtain ⟨inner, rfl, hInner⟩ := hCons hFront hPrefix
    exact not_mem_of_open h hInner hFront
  | comment h =>
    refine .inr fun p front hFront hPrefix => ?_
    obtain ⟨inner, rfl, hInner⟩ := hCons hFront hPrefix
    exact not_mem_of_unclosed h hInner hFront
  | large h _ => exact .inl (mem_integer_iff.mpr ⟨[], .inl rfl, _, h, rfl⟩)
  | small h _ => exact .inl (mem_integer_iff.mpr ⟨['-'], .inr rfl, _, h, rfl⟩)

end Dropped

theorem munched_next {c : Char} {rest behind : List Char} (h : c :: rest = (next c rest).text ++ behind) :
    (next c rest).Munched behind := by
  have hLongest : ∀ {p : Pattern} {own : List Char}, own ∈ p.language → own <+: (next c rest).text ++ behind →
      own.length ≤ (next c rest).text.length := fun hOwn hFront => length_le_next hOwn (by rwa [h])
  refine ⟨hLongest, ?_, ?_⟩
  · intro p hWins
    obtain ⟨d, inner, hText, hNext⟩ := hWins.next
    have hRest := h
    rw [hText, List.cons_append] at hRest
    obtain ⟨rfl, rfl⟩ := List.cons.inj hRest
    rw [next_of_append ⟨[], by rw [List.append_nil, hText]⟩] at hNext
    exact congrArg Lexeme.meaning hNext
  · have hSorted := sorted_next c rest
    rw [Sorted] at hSorted
    cases hMeaning : (next c rest).meaning with
    | token t =>
      obtain ⟨p, hp⟩ := patterned_next c rest t hMeaning
      exact .inl (exists_wins hp)
    | blank =>
      rw [hMeaning] at hSorted
      obtain ⟨p, hp⟩ := blank_pattern hSorted (next_text_ne_nil c rest)
      exact .inl (exists_wins hp)
    | stray =>
      rw [hMeaning] at hSorted
      rcases dropped_pattern hSorted with hInteger | hNone
      · exact .inl (exists_wins hInteger)
      · refine .inr ⟨rfl, fun p own hOwn hFront => ?_⟩
        exact hNone p own hOwn (List.prefix_of_prefix_length_le hFront (List.prefix_append _ _) (hLongest hOwn hFront))

theorem munched_of_split {text : List Char} {before behind : List Lexeme} {l : Lexeme}
    (h : split text = before ++ l :: behind) : l.Munched (behind.flatMap Lexeme.text) := by
  have hRest := split_flatMap_text h
  have hMem : l ∈ split text := by simp [h]
  obtain ⟨c, own, hOwn⟩ := List.exists_cons_of_ne_nil (text_ne_nil_of_mem_split hMem)
  have hText : c :: (own ++ behind.flatMap Lexeme.text) = l.text ++ behind.flatMap Lexeme.text := by
    rw [hOwn, List.cons_append]
  rw [List.flatMap_cons, ← hText, split_eq_cons_iff hText] at hRest
  obtain ⟨rfl, -⟩ := hRest
  exact munched_next hText

end Lexeme

namespace Token

/-- Tokens stand in order on bytes of their own. Each stands on whole characters, and its text is the longest one in
front of the rest of the source that has a pattern, be it that of a comment. What the token is depends on its text
alone: it is what the pattern of the text says, where a keyword comes before an identifier. -/
theorem scan_longest (source : String) :
    InOrder (scan source) ∧
    ∀ t ∈ scan source, ∃ before text behind : String,
      source = before ++ text ++ behind ∧
      t.span = ⟨before.utf8ByteSize, before.utf8ByteSize + text.utf8ByteSize⟩ ∧
      (∃ p : Pattern, p.Wins text.toList) ∧
      (∀ p : Pattern, p.Wins text.toList → p.meaning text.toList = .token t.value) ∧
      text.toList ∉ lineComment.language ∧ text.toList ∉ blockComment.language ∧
      ∀ (p : Pattern) (own : List Char), own ∈ p.language → own <+: (text ++ behind).toList →
        own.length ≤ text.length := by
  refine ⟨scan_ordered source, fun t ht => ?_⟩
  obtain ⟨before, l, behind, hSplit, hMeaning, hStart, hStop⟩ := Lexeme.exists_split_of_mem_tokensFrom ht
  obtain ⟨hLongest, hMeans, hMatched⟩ := Lexeme.munched_of_split hSplit
  have hSource : source.toList = before.flatMap Lexeme.text ++ (l.text ++ behind.flatMap Lexeme.text) := by
    rw [← Lexeme.flatMap_text_split source.toList, hSplit, List.flatMap_append, List.flatMap_cons]
  have hWins : ∃ p : Pattern, p.Wins l.text := by
    rcases hMatched with hWins | ⟨hStray, -⟩
    · exact hWins
    · rw [hMeaning] at hStray
      cases hStray
  have hNoComment : ∀ {p : Pattern}, p.Wins l.text → p.meaning l.text ≠ .blank := by
    intro p hp hBlank
    rw [← hMeans hp, hMeaning] at hBlank
    cases hBlank
  have hBytes : ∀ text : List Char, (String.ofList text).utf8ByteSize = Lexeme.byteCount text := by
    intro text
    rw [← Lexeme.byteCount_toList, String.toList_ofList]
  refine ⟨String.ofList (before.flatMap Lexeme.text), String.ofList l.text, String.ofList (behind.flatMap Lexeme.text),
    ?_, ?_, ?_⟩
  · apply String.toList_injective
    simp [hSource]
  · rw [hBytes, hBytes, ← Nat.zero_add (Lexeme.byteCount _), ← hStart, ← hStop]
  · rw [← String.ofList_append, String.toList_ofList, String.toList_ofList, String.length_ofList]
    refine ⟨hWins, fun p hp => ?_, fun hLine => ?_, fun hBlock => ?_, fun p own hOwn hFront => hLongest hOwn hFront⟩
    · rw [← hMeans hp, hMeaning]
    · exact hNoComment (p := .lineComment) ⟨hLine, nofun⟩ rfl
    · exact hNoComment (p := .blockComment) ⟨hBlock, nofun⟩ rfl

/-- Behind a character of two bytes, a numeral that a point could have gone on with if there were digits behind it. -/
theorem scan_longest_numeral : ∃ before text behind : String,
    "é-1.x" = before ++ text ++ behind ∧
    (⟨2, 4⟩ : Span) = ⟨before.utf8ByteSize, before.utf8ByteSize + text.utf8ByteSize⟩ ∧
    ∀ (p : Pattern) (own : List Char), own ∈ p.language → own <+: (text ++ behind).toList →
      own.length ≤ text.length := by
  obtain ⟨before, text, behind, hSource, hSpan, -, -, -, -, hLongest⟩ :=
    (scan_longest "é-1.x").2 ⟨.integer (-1), ⟨2, 4⟩⟩ (by decide +kernel)
  exact ⟨before, text, behind, hSource, hSpan, hLongest⟩

end Token
end TypedMarkup
