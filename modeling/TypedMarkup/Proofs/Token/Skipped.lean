import TypedMarkup.Proofs.Token.Cutting
import TypedMarkup.Proofs.Token.Values

/-! # Text without tokens

The text between the tokens of a source is white space, comments, and what is dropped: characters that begin no
token, quotes and comments that are not closed, and integers beyond 64 bits. A number with a point is never dropped.
-/
namespace TypedMarkup
set_option autoImplicit false

namespace Lexeme
open Token

/-- White space, or a whole comment. -/
inductive Blank : List Char → Prop
  | space {text : List Char} (h : ∀ c ∈ text, isBlank c = true) : Blank text
  | line {body : List Char} (h : '\n' ∉ body) : Blank ('/' :: '/' :: body)
  | block {body : List Char} (h : commentBody? body = some body) : Blank ('/' :: '*' :: body)

/-- Text that is dropped, as it is neither blank nor a token. -/
inductive Dropped : List Char → Prop
  | lone {c : Char} (hBlank : isBlank c = false) (hWord : startsWord c = false) (hDigit : c.isDigit = false)
      (hQuote : c ≠ '"') (hMark : ∀ m : Mark, m.spelling.toList ≠ [c]) : Dropped [c]
  | quote {body : List Char} (h : quotedBody body = (body, false)) : Dropped ('"' :: body)
  | comment {body : List Char} (h : commentBody? body = none) : Dropped ('/' :: '*' :: body)
  | large {digits : List Char} (h : IsNumeral digits) (hValue : Int64.maxValue.toInt < Numeral.value digits) :
      Dropped digits
  | small {digits : List Char} (h : IsNumeral digits) (hValue : -(Numeral.value digits : Int) < Int64.minValue.toInt) :
      Dropped ('-' :: digits)

/-- A lexeme that is no token has text that is blank or dropped, as it says. -/
def Sorted (l : Lexeme) : Prop :=
  match l.meaning with
  | .token _ => True
  | .blank => Blank l.text
  | .stray => Dropped l.text

theorem isNumeral_takeWhile {text : List Char} (h : text.takeWhile Char.isDigit ≠ []) :
    IsNumeral (text.takeWhile Char.isDigit) :=
  ⟨h, List.all_eq_true.mp List.all_takeWhile⟩

theorem sorted_integer {digits : List Char} (h : IsNumeral digits) :
    (Lexeme.mk digits (integerMeaning digits)).Sorted ∧
      (Lexeme.mk ('-' :: digits) (integerMeaning ('-' :: digits))).Sorted := by
  obtain ⟨hPlain, hNegative⟩ := integer?_of_isNumeral h
  have hNonneg : Int64.minValue.toInt ≤ (Numeral.value digits : Int) :=
    (by decide : Int64.minValue.toInt ≤ 0).trans (Int.natCast_nonneg _)
  have hNonpos : -(Numeral.value digits : Int) ≤ Int64.maxValue.toInt :=
    (Int.neg_nonpos_of_nonneg (Int.natCast_nonneg _)).trans (by decide)
  constructor
  · rw [integerMeaning, hPlain]
    dsimp only
    split
    case isTrue => trivial
    case isFalse hRange => exact .large h (not_le.mp fun hMax => hRange ⟨hNonneg, hMax⟩)
  · rw [integerMeaning, hNegative]
    dsimp only
    split
    case isTrue => trivial
    case isFalse hRange => exact .small h (not_le.mp fun hMin => hRange ⟨hMin, hNonpos⟩)

theorem unsigned?_ne_none {digits fraction : List Char} (h : IsNumeral digits) (hFraction : IsNumeral fraction)
    (negative : Bool) : Numeral.unsigned? negative (digits ++ '.' :: fraction) ≠ none := by
  have hWhole : (digits ++ '.' :: fraction).takeWhile Char.isDigit = digits := by
    rw [List.takeWhile_append_of_pos h.2, List.takeWhile_cons_of_neg (by decide), List.append_nil]
  have hRest : (digits ++ '.' :: fraction).dropWhile Char.isDigit = '.' :: fraction := by
    rw [List.dropWhile_append_of_pos h.2, List.dropWhile_cons_of_neg (by decide)]
  have hPlaces : fraction.takeWhile Char.isDigit = fraction := List.takeWhile_eq_self_iff.mpr hFraction.2
  have hEnd : fraction.dropWhile Char.isDigit = [] := List.dropWhile_eq_nil_iff.mpr hFraction.2
  simp [Numeral.unsigned?, hWhole, hRest, hPlaces, hEnd, h.1, Numeral.exponent?]

theorem toLower_of_isDigit {c : Char} (h : c.isDigit = true) : c.toLower = c := by
  delta Char.isDigit at h
  simp only [Bool.and_eq_true, decide_eq_true_eq, UInt32.le_iff_toNat_le] at h
  delta Char.toLower
  rw [dif_neg]
  simp only [ge_iff_le, UInt32.le_iff_toNat_le]
  simp only [Char.reduceVal, UInt32.reduceToNat] at h ⊢
  omega

/-- Digits behind a sign are no word for a number. -/
theorem binary64?_of_sign {digits text rest : List Char} {negative : Bool} (h : IsNumeral digits)
    (hSign : Numeral.sign text = (negative, digits ++ rest)) :
    Numeral.binary64? text = Numeral.unsigned? negative (digits ++ rest) := by
  have hWord : ∀ (word : String) (d : Char) (more : List Char), word.toList = d :: more → d.isDigit = false →
      String.ofList ((digits ++ rest).map Char.toLower) ≠ word := by
    rintro _ d more hText hLetter rfl
    obtain ⟨c, digits, rfl⟩ := List.exists_cons_of_ne_nil h.1
    have hDigit := h.2 c List.mem_cons_self
    rw [String.toList_ofList, List.cons_append, List.map_cons, toLower_of_isDigit hDigit] at hText
    obtain ⟨rfl, -⟩ := List.cons.inj hText
    rw [hDigit] at hLetter
    cases hLetter
  rw [Numeral.binary64?, hSign]
  dsimp only
  split
  case h_1 hNan => exact absurd hNan (hWord "nan" _ _ rfl rfl)
  case h_2 hInf => exact absurd hInf (hWord "inf" _ _ rfl rfl)
  case h_3 hInf => exact absurd hInf (hWord "infinity" _ _ rfl rfl)
  case h_4 => rfl

theorem sorted_float {text : List Char} (h : Numeral.binary64? text ≠ none) :
    (Lexeme.mk text (floatMeaning text)).Sorted := by
  obtain ⟨x, hx⟩ := Option.ne_none_iff_exists'.mp h
  rw [floatMeaning, hx]
  trivial

theorem sorted_point {digits fraction : List Char} (h : IsNumeral digits) (hFraction : IsNumeral fraction) :
    (Lexeme.mk (digits ++ '.' :: fraction) (floatMeaning (digits ++ '.' :: fraction))).Sorted ∧
      (Lexeme.mk ('-' :: (digits ++ '.' :: fraction)) (floatMeaning ('-' :: (digits ++ '.' :: fraction)))).Sorted := by
  constructor
  · apply sorted_float
    rw [binary64?_of_sign h (sign_of_isNumeral h _)]
    exact unsigned?_ne_none h hFraction false
  · apply sorted_float
    have hSign : Numeral.sign ('-' :: (digits ++ '.' :: fraction)) = (true, digits ++ '.' :: fraction) := rfl
    rw [binary64?_of_sign h hSign]
    exact unsigned?_ne_none h hFraction true

theorem sorted_numeral {sign digits : List Char}
    (hInteger : (Lexeme.mk (sign ++ digits) (integerMeaning (sign ++ digits))).Sorted)
    (hPoint : ∀ fraction, IsNumeral fraction → (Lexeme.mk (sign ++ digits ++ '.' :: fraction)
      (floatMeaning (sign ++ digits ++ '.' :: fraction))).Sorted) (rest : List Char) :
    (numeral sign digits rest).Sorted := by
  unfold numeral
  split
  case h_1 rest =>
    dsimp only
    split
    case isTrue => exact hInteger
    case isFalse hSome => exact hPoint _ (isNumeral_takeWhile (by simpa using hSome))
  case h_2 => exact hInteger

theorem sorted_signed {digits : List Char} (h : IsNumeral digits) (rest : List Char) :
    (numeral [] digits rest).Sorted ∧ (numeral ['-'] digits rest).Sorted := by
  constructor
  · apply sorted_numeral
    · rw [List.nil_append]
      exact (sorted_integer h).1
    · intro fraction hFraction
      rw [List.nil_append]
      exact (sorted_point h hFraction).1
  · apply sorted_numeral
    · rw [List.singleton_append]
      exact (sorted_integer h).2
    · intro fraction hFraction
      rw [List.singleton_append, List.cons_append]
      exact (sorted_point h hFraction).2

theorem sorted_slash (rest : List Char) : (slash rest).Sorted := by
  unfold slash
  split
  case h_1 => trivial
  case h_2 rest =>
    apply Blank.line
    intro hBreak
    have hNot := List.all_eq_true.mp (List.all_takeWhile (p := (· ≠ '\n')) (l := rest)) '\n' hBreak
    cases hNot
  case h_3 rest =>
    split
    case h_1 body hBody => exact Blank.block (commentBody?_self hBody)
    case h_2 hBody => exact Dropped.comment hBody
  case h_4 =>
    refine Dropped.lone (by decide) (by decide) (by decide) (by decide) ?_
    intro m
    cases m <;> decide

theorem sorted_quote (rest : List Char) (h : (quotedBody rest).2 = false) : Dropped ('"' :: (quotedBody rest).1) := by
  obtain ⟨more, hMore⟩ := quotedBody_isPrefix rest
  have hSame : quotedBody (quotedBody rest).1 = quotedBody ((quotedBody rest).1 ++ more) :=
    quotedBody_of_append ⟨[], by rw [hMore, List.append_nil]⟩
  apply Dropped.quote
  rw [hSame, hMore, ← h]

/-- The kinds of lexemes that a character can begin. -/
theorem next_cases {motive : Lexeme → Prop} (c : Char) (rest : List Char)
    (space : isBlank c = true → motive ⟨c :: rest.takeWhile isBlank, .blank⟩)
    (word : startsWord c = true → motive (word (c :: rest.takeWhile continuesWord)))
    (numeral : ∀ sign digits behind, sign = [] ∨ sign = ['-'] → IsNumeral digits →
      motive (numeral sign digits behind))
    (quote : motive ⟨'"' :: (quotedBody rest).1,
      if (quotedBody rest).2 then .token (.text (content ('"' :: (quotedBody rest).1))) else .stray⟩)
    (slash : motive (slash rest)) (mark : ∀ m, motive (mark m))
    (lone : isBlank c = false → startsWord c = false → c.isDigit = false → c ≠ '"' →
      (∀ m : Mark, m.spelling.toList ≠ [c]) → motive ⟨[c], .stray⟩) : motive (next c rest) := by
  cases hBlank : isBlank c with
  | true =>
    simp only [next, hBlank, if_true]
    exact space hBlank
  | false =>
    cases hWord : startsWord c with
    | true =>
      simp only [next, hBlank, hWord, Bool.false_eq_true, if_false, if_true]
      exact word hWord
    | false =>
      cases hDigit : c.isDigit with
      | true =>
        simp only [next, hBlank, hWord, hDigit, Bool.false_eq_true, if_false, if_true]
        exact numeral [] _ _ (.inl rfl)
          ⟨List.cons_ne_nil _ _, List.forall_mem_cons.mpr ⟨hDigit, List.all_eq_true.mp List.all_takeWhile⟩⟩
      | false =>
        simp only [next, hBlank, hWord, hDigit, Bool.false_eq_true, if_false]
        split
        case h_1 =>
          split
          case isTrue =>
            refine lone hBlank hWord hDigit (by decide) ?_
            intro m
            cases m <;> decide
          case isFalse hSome =>
            exact numeral ['-'] _ _ (.inr rfl) (isNumeral_takeWhile (by simpa using hSome))
        case h_2 => exact quote
        case h_3 => exact slash
        case h_4 => split <;> exact mark _
        case h_14 =>
          refine lone hBlank hWord hDigit (by assumption) ?_
          intro m hMark
          cases m <;> cases hMark <;> contradiction
        all_goals exact mark _

theorem sorted_next (c : Char) (rest : List Char) : (next c rest).Sorted := by
  apply next_cases
  case space =>
    intro hBlank
    exact Blank.space (List.forall_mem_cons.mpr ⟨hBlank, List.all_eq_true.mp List.all_takeWhile⟩)
  case word =>
    intro _
    rw [word]
    split <;> trivial
  case numeral =>
    rintro sign digits behind (rfl | rfl) hDigits
    · exact (sorted_signed hDigits behind).1
    · exact (sorted_signed hDigits behind).2
  case quote =>
    cases hClosed : (quotedBody rest).2 with
    | true => trivial
    | false => exact sorted_quote rest hClosed
  case slash => exact sorted_slash rest
  case mark => exact fun _ => trivial
  case lone => exact Dropped.lone

theorem sorted_of_mem_split {text : List Char} {l : Lexeme} (hl : l ∈ split text) : l.Sorted :=
  of_mem_split (P := Sorted) sorted_next hl

theorem blank_or_dropped {text : List Char} {l : Lexeme} (hl : l ∈ split text) (h : l.token? = none) :
    Blank l.text ∨ Dropped l.text := by
  have hSorted := sorted_of_mem_split hl
  obtain ⟨own, meaning⟩ := l
  cases meaning with
  | token t => cases h
  | blank => exact .inl hSorted
  | stray => exact .inr hSorted

end Lexeme
end TypedMarkup
