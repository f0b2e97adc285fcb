import Mathlib.Data.List.TakeWhile
import TypedMarkup.Proofs.Token.Joining
import TypedMarkup.Proofs.Token.Names

/-! # Written tokens

The texts that write a token, but for numbers with a point: words and marks as they are spelled, names,
integers in decimal, and quoted texts in which any character but a line break may stand behind a backslash.
Tokens that are written with a space between two of them are the tokens of what is written.
-/
namespace TypedMarkup
set_option autoImplicit false

namespace Token

/-- What may stand between quotes for a text. -/
inductive Escapes : List Char → List Char → Prop
  | nil : Escapes [] []
  | plain {c : Char} {text body : List Char} (hQuote : c ≠ '"') (hBackslash : c ≠ '\\') (h : Escapes text body) :
      Escapes (c :: text) (c :: body)
  | escaped {c : Char} {text body : List Char} (hBreak : c ≠ '\n') (h : Escapes text body) :
      Escapes (Lexeme.unescapeChar c :: text) ('\\' :: c :: body)

/-- At least one decimal digit. -/
def IsNumeral (digits : List Char) : Prop := digits ≠ [] ∧ ∀ c ∈ digits, c.isDigit = true

inductive Written : Token → List Char → Prop
  | keyword (k : Keyword) : Written (.keyword k) k.spelling.toList
  | mark (m : Mark) : Written (.mark m) m.spelling.toList
  | identifier {name : String} (h : IsName name) : Written (.identifier name) name.toList
  | text {content : String} {body : List Char} (h : Escapes content.toList body) :
      Written (.text content) ('"' :: (body ++ ['"']))
  | integer {n : Int64} {digits : List Char} (h : IsNumeral digits)
      (hValue : (Numeral.value digits : Int) = n.toInt) :
      Written (.integer n) digits
  | negative {n : Int64} {digits : List Char} (h : IsNumeral digits)
      (hValue : -(Numeral.value digits : Int) = n.toInt) :
      Written (.integer n) ('-' :: digits)

end Token

namespace Lexeme

theorem quotedBody_of_escapes {text body : List Char} (h : Token.Escapes text body) :
    quotedBody (body ++ ['"']) = (body ++ ['"'], true) := by
  induction h with
  | nil => rfl
  | plain hQuote hBackslash _ ih => rw [List.cons_append, quotedBody_plain hQuote hBackslash, ih]
  | escaped hBreak _ ih => rw [List.cons_append, List.cons_append, quotedBody_escaped hBreak, ih]

theorem unescape_plain {c : Char} (h : c ≠ '\\') (rest : List Char) : unescape (c :: rest) = c :: unescape rest := by
  rw [unescape] <;> simp [h]

theorem unescape_of_escapes {text body : List Char} (h : Token.Escapes text body) : unescape body = text := by
  induction h with
  | nil => rfl
  | plain hQuote hBackslash _ ih => rw [unescape_plain hBackslash, ih]
  | escaped _ _ ih => rw [unescape, ih]

theorem content_quoted (body : List Char) : content ('"' :: (body ++ ['"'])) = String.ofList (unescape body) := by
  simp [content]

theorem isBlank_of_startsWord {c : Char} (h : startsWord c = true) : isBlank c = false := by
  cases hBlank : isBlank c with
  | false => rfl
  | true => exact absurd (continuesWord_of_startsWord h) (by simp [continuesWord_of_isBlank hBlank])

theorem isBlank_of_isDigit {c : Char} (h : c.isDigit = true) : isBlank c = false := by
  cases hBlank : isBlank c with
  | false => rfl
  | true => exact absurd h (by simp [isDigit_of_isBlank hBlank])

theorem startsWord_of_isDigit {c : Char} (h : c.isDigit = true) : startsWord c = false := by
  have hUnderscore : c ≠ '_' := by
    rintro rfl
    cases h
  have hAlpha : c.isAlpha = false := by
    delta Char.isAlpha Char.isUpper Char.isLower
    delta Char.isDigit at h
    simp only [Bool.and_eq_true, decide_eq_true_eq, Bool.or_eq_false_iff, Bool.and_eq_false_iff,
      decide_eq_false_iff_not, UInt32.le_iff_toNat_le] at h ⊢
    simp only [Char.reduceVal, UInt32.reduceToNat] at h ⊢
    omega
  simp [startsWord, hAlpha, hUnderscore]

theorem next_name {name : String} (h : Token.IsName name) :
    ∃ c rest, name.toList = c :: rest ∧
      ∀ more, EndsWord more → next c (rest ++ more) = ⟨c :: rest, .token (.identifier name)⟩ := by
  obtain ⟨c, rest, hName, hStart, hRest, hKeyword⟩ := h
  refine ⟨c, rest, hName, ?_⟩
  intro more hMore
  have hText : String.ofList (c :: rest) = name := by rw [← hName, String.ofList_toList]
  simp only [next, isBlank_of_startsWord hStart, Bool.false_eq_true, if_false, hStart, if_true,
    takeWhile_continuesWord hRest hMore, word, hText, hKeyword]

theorem next_quoted {text body : List Char} (h : Token.Escapes text body) :
    next '"' (body ++ ['"']) = ⟨'"' :: (body ++ ['"']), .token (.text (String.ofList text))⟩ := by
  have hNext : next '"' (body ++ ['"']) =
      let own := quotedBody (body ++ ['"'])
      ⟨'"' :: own.1, if own.2 then .token (.text (content ('"' :: own.1))) else .stray⟩ := rfl
  rw [hNext, quotedBody_of_escapes h]
  dsimp only
  rw [if_pos rfl, content_quoted, unescape_of_escapes h]

theorem integerMeaning_of_integer? {text : List Char} {n : Int64} (h : Numeral.integer? text = some n.toInt) :
    integerMeaning text = .token (.integer n) := by
  have hRange : Int64.minValue.toInt ≤ n.toInt ∧ n.toInt ≤ Int64.maxValue.toInt :=
    ⟨n.minValue_le_toInt, n.toInt_le⟩
  rw [integerMeaning, h]
  dsimp only
  rw [if_pos hRange, Int64.ofInt_toInt]

theorem numeral_nil (sign digits : List Char) :
    numeral sign digits [] = ⟨sign ++ digits, integerMeaning (sign ++ digits)⟩ := rfl

theorem sign_of_isNumeral {digits : List Char} (h : Token.IsNumeral digits) (rest : List Char) :
    Numeral.sign (digits ++ rest) = (false, digits ++ rest) := by
  obtain ⟨c, digits, rfl⟩ := List.exists_cons_of_ne_nil h.1
  have hDigit := h.2 c List.mem_cons_self
  rw [List.cons_append, Numeral.sign]
  · rintro _ ⟨⟩
    cases hDigit
  · rintro _ ⟨⟩
    cases hDigit

theorem integer?_of_isNumeral {digits : List Char} (h : Token.IsNumeral digits) :
    Numeral.integer? digits = some (Numeral.value digits : Int) ∧
      Numeral.integer? ('-' :: digits) = some (-(Numeral.value digits : Int)) := by
  have hSign := sign_of_isNumeral h []
  rw [List.append_nil] at hSign
  obtain ⟨hNil, hDigits⟩ := h
  have hAll : digits.all Char.isDigit = true := List.all_eq_true.mpr hDigits
  constructor
  · simp [Numeral.integer?, hSign, hNil, hAll]
  · simp [Numeral.integer?, Numeral.sign, hNil, hAll]

theorem next_numeral {digits : List Char} (h : Token.IsNumeral digits) :
    (∃ c rest, digits = c :: rest ∧ next c rest = ⟨digits, integerMeaning digits⟩) ∧
      next '-' digits = ⟨'-' :: digits, integerMeaning ('-' :: digits)⟩ := by
  obtain ⟨hNil, hDigits⟩ := h
  constructor
  · obtain ⟨c, rest, rfl⟩ := List.exists_cons_of_ne_nil hNil
    have hc := hDigits c List.mem_cons_self
    have hRest : ∀ d ∈ rest, d.isDigit = true := fun d hd => hDigits d (List.mem_cons_of_mem c hd)
    refine ⟨c, rest, rfl, ?_⟩
    simp only [next, isBlank_of_isDigit hc, startsWord_of_isDigit hc, hc, Bool.false_eq_true, if_false, if_true,
      List.takeWhile_eq_self_iff.mpr hRest, List.dropWhile_eq_nil_iff.mpr hRest, numeral_nil, List.nil_append]
  · have hNext : next '-' digits =
        let digits' := digits.takeWhile Char.isDigit
        if digits'.isEmpty then ⟨['-'], .stray⟩ else numeral ['-'] digits' (digits.dropWhile Char.isDigit) := rfl
    rw [hNext]
    simp only [List.takeWhile_eq_self_iff.mpr hDigits, List.dropWhile_eq_nil_iff.mpr hDigits, numeral_nil,
      List.isEmpty_iff, hNil, if_false]
    rfl

end Lexeme

namespace Token

theorem Written.next {t : Token} {text : List Char} (h : Written t text) :
    ∃ c rest, text = c :: rest ∧ Lexeme.next c rest = ⟨text, .token t⟩ := by
  cases h with
  | keyword k => cases k <;> exact ⟨_, _, rfl, by decide⟩
  | mark m => cases m <;> exact ⟨_, _, rfl, by decide⟩
  | identifier hName =>
    obtain ⟨c, rest, hText, hNext⟩ := Lexeme.next_name hName
    have hOwn := hNext [] Lexeme.endsWord_nil
    rw [List.append_nil] at hOwn
    rw [hText]
    exact ⟨c, rest, rfl, hOwn⟩
  | @text content body hBody =>
    have hNext := Lexeme.next_quoted hBody
    rw [String.ofList_toList] at hNext
    exact ⟨'"', _, rfl, hNext⟩
  | integer hNumeral hValue =>
    obtain ⟨c, rest, rfl, hNext⟩ := (Lexeme.next_numeral hNumeral).1
    refine ⟨c, rest, rfl, ?_⟩
    have hInteger := (Lexeme.integer?_of_isNumeral hNumeral).1.trans (congrArg some hValue)
    rw [hNext, Lexeme.integerMeaning_of_integer? hInteger]
  | negative hNumeral hValue =>
    refine ⟨'-', _, rfl, ?_⟩
    rw [(Lexeme.next_numeral hNumeral).2,
      Lexeme.integerMeaning_of_integer? ((Lexeme.integer?_of_isNumeral hNumeral).2.trans (congrArg some hValue))]

theorem Written.split {t : Token} {text : List Char} (h : Written t text) :
    Lexeme.split text = [⟨text, .token t⟩] := by
  obtain ⟨c, rest, rfl, hNext⟩ := h.next
  rw [Lexeme.split, hNext]
  simp [Lexeme.split]

/-- The tokens are written one behind another, with a space between two of them. -/
def WrittenApart (ts : List Token) (source : String) : Prop :=
  ∃ texts, List.Forall₂ Written ts texts ∧ source.toList = [' '].intercalate texts

theorem map_value_tokensFrom_written {ts : List Token} {texts : List (List Char)} (h : List.Forall₂ Written ts texts)
    (offset : Nat) : (Lexeme.tokensFrom offset (Lexeme.split ([' '].intercalate texts))).map Located.value = ts := by
  induction h generalizing offset with
  | nil =>
    rw [List.intercalate_nil, Lexeme.split]
    rfl
  | @cons t text ts texts hHead hRest ih =>
    cases texts with
    | nil =>
      cases hRest
      rw [List.intercalate_singleton, hHead.split]
      rfl
    | cons text' texts =>
      have hOnly : ∀ l ∈ Lexeme.split text, l.meaning = .token t := by
        rw [hHead.split]
        simp
      rw [List.intercalate_cons_cons, List.append_assoc]
      rw [List.singleton_append, Lexeme.tokensFrom_split_append (by decide) (fun l hl => by simp [hOnly l hl])
        (.inr fun l hl => by simp [hOnly l hl]), Lexeme.tokensFrom_split_blank (by decide), List.map_append, ih,
        hHead.split]
      rfl

theorem WrittenApart.scan_values {ts : List Token} {source : String} (h : WrittenApart ts source) :
    (scan source).map Located.value = ts := by
  obtain ⟨texts, hTexts, hSource⟩ := h
  rw [scan, hSource]
  exact map_value_tokensFrom_written hTexts 0

end Token
end TypedMarkup
