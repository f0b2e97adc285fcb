import Mathlib.Data.List.Forall2
import TypedMarkup.Proofs.Token.Written

/-! # Tokens read back

Every token but a number with a point has a spelling from which it is read back. In a row the spellings stand with a
space between two of them, whatever tokens stand side by side.
-/
namespace TypedMarkup
set_option autoImplicit false

namespace Token

/-- How a character is written in a quoted text: a quote and a backslash stand behind a backslash, all others for
themselves. -/
def escape (c : Char) : List Char := if c = '"' ∨ c = '\\' then ['\\', c] else [c]

theorem escapes_flatMap_escape (text : List Char) : Escapes text (text.flatMap escape) := by
  induction text with
  | nil => exact .nil
  | cons c text ih =>
    rw [List.flatMap_cons, escape]
    split
    case isTrue hMark =>
      have hBreak : c ≠ '\n' := by rcases hMark with rfl | rfl <;> decide
      have hChar : Lexeme.unescapeChar c = c := by rcases hMark with rfl | rfl <;> rfl
      have hEscaped := Escapes.escaped hBreak ih
      rwa [hChar] at hEscaped
    case isFalse hPlain =>
      obtain ⟨hQuote, hBackslash⟩ := not_or.mp hPlain
      exact .plain hQuote hBackslash ih

theorem isNumeral_toDigits (n : Nat) : IsNumeral (Nat.toDigits 10 n) :=
  ⟨Nat.toDigits_ne_nil, fun _ hc => Nat.isDigit_of_mem_toDigits (by decide) (by decide) hc⟩

theorem value_toDigits (n : Nat) : Numeral.value (Nat.toDigits 10 n) = n := Nat.ofDigitChars_ten_toDigits

theorem written_integer (n : Int64) : Written (.integer n) (toString n.toInt).toList := by
  cases hValue : n.toInt with
  | ofNat m =>
    have hText : (toString (Int.ofNat m)).toList = Nat.toDigits 10 m := by
      change (toString m).toList = _
      rw [Nat.toString_eq_ofList_toDigits, String.toList_ofList]
    rw [hText]
    exact .integer (isNumeral_toDigits m) (by rw [value_toDigits, hValue]; rfl)
  | negSucc m =>
    have hText : (toString (Int.negSucc m)).toList = '-' :: Nat.toDigits 10 (m + 1) := by
      change ("-" ++ toString (m + 1)).toList = _
      simp
    rw [hText]
    exact .negative (isNumeral_toDigits (m + 1)) (by rw [value_toDigits, hValue]; rfl)

/-- One text for a token. A number with a point is written as in code. -/
def spelling : Token → String
  | keyword k => k.spelling
  | mark m => m.spelling
  | identifier name => name
  | text content => "\"" ++ String.ofList (content.toList.flatMap escape) ++ "\""
  | float x => NumberLayout.code.write x
  | integer n => toString n.toInt

/-- A number with a point is not read back from its spelling, nor is an identifier that holds no name. -/
def IsSpelled : Token → Prop
  | identifier name => IsName name
  | float _ => False
  | _ => True

instance : DecidablePred IsSpelled
  | identifier name => inferInstanceAs (Decidable (IsName name))
  | float _ => isFalse id
  | keyword _ | mark _ | text _ | integer _ => isTrue trivial

theorem IsSpelled.written {t : Token} (h : t.IsSpelled) : Written t t.spelling.toList := by
  cases t with
  | keyword k => exact .keyword k
  | mark m => exact .mark m
  | identifier name => exact .identifier h
  | text content =>
    have hText : (text content).spelling.toList = '"' :: (content.toList.flatMap escape ++ ['"']) := by
      simp [spelling]
    rw [hText]
    exact .text (escapes_flatMap_escape content.toList)
  | float x => cases h
  | integer n => exact written_integer n

/-- Tokens are read back from their spellings with a space between two of them. -/
theorem scan_spellings {ts : List Token} (h : ∀ t ∈ ts, t.IsSpelled) :
    (scan (" ".intercalate (ts.map spelling))).map Located.value = ts := by
  apply WrittenApart.scan_values
  refine ⟨(ts.map spelling).map String.toList, ?_, ?_⟩
  · rw [List.map_map, List.forall₂_map_right_iff, List.forall₂_same]
    exact fun t ht => (h t ht).written
  · rw [String.toList_intercalate]
    rfl

/-- The limits of integers, and a text with a quote, a backslash, a line break and characters of several bytes. -/
theorem scan_spellings_limits :
    let ts : List Token := [.integer Int64.minValue, .integer Int64.maxValue, .text "\"\\\né🙂", .identifier "x-1",
      .mark .less, .mark .slashGreater, .keyword .binding]
    (scan (" ".intercalate (ts.map spelling))).map Located.value = ts :=
  scan_spellings (by decide)

end Token
end TypedMarkup
