import Mathlib.Computability.Language
import TypedMarkup.Proofs.Token.Skipped

/-! # Patterns

The texts that stand for each kind of token, for comments and for white space, as regular languages, and what each
of these texts means. A text may have two patterns only where a keyword is spelled like an identifier.
-/
namespace TypedMarkup
set_option autoImplicit false
open Computability

inductive Pattern where
  | keyword (k : Keyword)
  | mark (m : Mark)
  | identifier
  | text
  | float
  | integer
  | lineComment
  | blockComment
  | space

namespace Pattern

/-- The texts of one character. -/
def one (p : Char → Bool) : Language Char := {text | ∃ c, p c = true ∧ text = [c]}

def row (p : Char → Bool) : Language Char := one p * (one p)∗

def sign : Language Char := 1 + {['-']}

/-- What may stand between quotes. -/
def quoted : Language Char := (one (fun c => c ≠ '"' && c ≠ '\\') + {['\\']} * one (· ≠ '\n'))∗

/-- What may stand between the marks of a block comment. -/
def commented : Language Char := (one (· ≠ '*') + {['*']} * one (· ≠ '/'))∗

def language : Pattern → Language Char
  | keyword k => {k.spelling.toList}
  | mark m => {m.spelling.toList}
  | identifier => one Lexeme.startsWord * (one Lexeme.continuesWord)∗
  | text => {['"']} * quoted * {['"']}
  | float => sign * row Char.isDigit * {['.']} * row Char.isDigit
  | integer => sign * row Char.isDigit
  | lineComment => {['/', '/']} * (one (· ≠ '\n'))∗
  | blockComment => {['/', '*']} * commented * {['*', '/']}
  | space => row Lexeme.isBlank

/-- What a text of the pattern means. An integer beyond 64 bits means nothing. -/
def meaning : Pattern → List Char → Lexeme.Meaning
  | keyword k, _ => .token (.keyword k)
  | mark m, _ => .token (.mark m)
  | identifier, own => .token (.identifier (String.ofList own))
  | text, own => .token (.text (Lexeme.content own))
  | float, own => Lexeme.floatMeaning own
  | integer, own => Lexeme.integerMeaning own
  | lineComment, _ | blockComment, _ | space, _ => .blank

/-- The text is one of the pattern, and no keyword if the pattern is that of identifiers. -/
def Wins (p : Pattern) (own : List Char) : Prop :=
  own ∈ p.language ∧ (p = identifier → ∀ k, own ∉ (keyword k).language)

section Membership

variable {p : Char → Bool} {own : List Char}

theorem mem_kstar_one_iff : own ∈ (one p)∗ ↔ ∀ c ∈ own, p c = true := by
  rw [Language.mem_kstar]
  constructor
  · rintro ⟨rows, rfl, hRows⟩ c hc
    obtain ⟨_, hRow, hc⟩ := List.mem_flatten.mp hc
    obtain ⟨d, hd, rfl⟩ := hRows _ hRow
    rwa [List.mem_singleton.mp hc]
  · intro h
    refine ⟨own.map fun c => [c], by rw [← List.flatMap_def, List.flatMap_singleton'], ?_⟩
    rw [List.forall_mem_map]
    exact fun c hc => ⟨c, h c hc, rfl⟩

theorem mem_one_mul_kstar_iff {q : Char → Bool} :
    own ∈ one p * (one q)∗ ↔ ∃ c rest, own = c :: rest ∧ p c = true ∧ ∀ d ∈ rest, q d = true := by
  rw [Language.mem_mul]
  constructor
  · rintro ⟨_, ⟨c, hc, rfl⟩, rest, hRest, rfl⟩
    exact ⟨c, rest, rfl, hc, mem_kstar_one_iff.mp hRest⟩
  · rintro ⟨c, rest, rfl, hc, hRest⟩
    exact ⟨[c], ⟨c, hc, rfl⟩, rest, mem_kstar_one_iff.mpr hRest, rfl⟩

theorem mem_row_iff : own ∈ row p ↔ own ≠ [] ∧ ∀ c ∈ own, p c = true := by
  rw [row, mem_one_mul_kstar_iff]
  constructor
  · rintro ⟨c, rest, rfl, h⟩
    exact ⟨List.cons_ne_nil c rest, List.forall_mem_cons.mpr h⟩
  · rintro ⟨hNil, h⟩
    obtain ⟨c, rest, rfl⟩ := List.exists_cons_of_ne_nil hNil
    exact ⟨c, rest, rfl, List.forall_mem_cons.mp h⟩

theorem mem_singleton_mul_iff {mark : List Char} {l : Language Char} :
    own ∈ {mark} * l ↔ ∃ rest ∈ l, own = mark ++ rest := by
  rw [Language.mem_mul]
  constructor
  · rintro ⟨_, rfl, rest, hRest, rfl⟩
    exact ⟨rest, hRest, rfl⟩
  · rintro ⟨rest, hRest, rfl⟩
    exact ⟨mark, rfl, rest, hRest, rfl⟩

theorem mem_between_iff {before behind : List Char} {l : Language Char} :
    own ∈ {before} * l * {behind} ↔ ∃ body ∈ l, own = before ++ (body ++ behind) := by
  rw [mul_assoc, mem_singleton_mul_iff]
  constructor
  · rintro ⟨_, ⟨body, hBody, _, rfl, rfl⟩, rfl⟩
    exact ⟨body, hBody, rfl⟩
  · rintro ⟨body, hBody, rfl⟩
    exact ⟨_, ⟨body, hBody, behind, rfl, rfl⟩, rfl⟩

theorem mem_sign_iff : own ∈ sign ↔ own = [] ∨ own = ['-'] := Iff.rfl

theorem mem_integer_iff : own ∈ integer.language ↔
    ∃ s ∈ sign, ∃ digits, Token.IsNumeral digits ∧ own = s ++ digits := by
  rw [language, Language.mem_mul]
  simp only [mem_row_iff, eq_comm, Token.IsNumeral]

theorem mem_float_iff : own ∈ float.language ↔
    ∃ s ∈ sign, ∃ digits fraction, Token.IsNumeral digits ∧ Token.IsNumeral fraction ∧
      own = s ++ digits ++ '.' :: fraction := by
  rw [language, mul_assoc, Language.mem_mul]
  constructor
  · rintro ⟨_, hWhole, _, hBehind, rfl⟩
    obtain ⟨s, hs, digits, hDigits, rfl⟩ := mem_integer_iff.mp hWhole
    obtain ⟨fraction, hFraction, rfl⟩ := mem_singleton_mul_iff.mp hBehind
    exact ⟨s, hs, digits, fraction, hDigits, mem_row_iff.mp hFraction, rfl⟩
  · rintro ⟨s, hs, digits, fraction, hDigits, hFraction, rfl⟩
    exact ⟨_, mem_integer_iff.mpr ⟨s, hs, digits, hDigits, rfl⟩, _,
      mem_singleton_mul_iff.mpr ⟨fraction, mem_row_iff.mpr hFraction, rfl⟩, rfl⟩

theorem mem_lineComment_iff : own ∈ lineComment.language ↔ ∃ body, '\n' ∉ body ∧ own = '/' :: '/' :: body := by
  have hBody : ∀ body : List Char, body ∈ (one (· ≠ '\n'))∗ ↔ '\n' ∉ body := by
    intro body
    rw [mem_kstar_one_iff]
    constructor
    · intro h hBreak
      exact absurd (h '\n' hBreak) (by decide)
    · intro h c hc
      exact decide_eq_true fun hBreak => h (hBreak ▸ hc)
  rw [language, mem_singleton_mul_iff]
  simp only [hBody]
  rfl

theorem append_mem_kstar {l : Language Char} {first rest : List Char} (h : first ∈ l) (hRest : rest ∈ l∗) :
    first ++ rest ∈ l∗ := by
  obtain ⟨rows, rfl, hRows⟩ := hRest
  exact ⟨first :: rows, rfl, List.forall_mem_cons.mpr ⟨h, hRows⟩⟩

theorem mem_quoted_iff : own ∈ quoted ↔ ∃ content, Token.Escapes content own := by
  constructor
  · rintro ⟨rows, rfl, hRows⟩
    induction rows with
    | nil => exact ⟨[], .nil⟩
    | cons row rows ih =>
      obtain ⟨hRow, hRest⟩ := List.forall_mem_cons.mp hRows
      obtain ⟨content, hContent⟩ := ih hRest
      rcases hRow with ⟨c, hc, rfl⟩ | ⟨_, rfl, _, ⟨c, hc, rfl⟩, rfl⟩
      · rw [Bool.and_eq_true, decide_eq_true_eq, decide_eq_true_eq] at hc
        exact ⟨_, .plain hc.1 hc.2 hContent⟩
      · exact ⟨_, .escaped (of_decide_eq_true hc) hContent⟩
  · rintro ⟨content, h⟩
    induction h with
    | nil => exact Language.nil_mem_kstar _
    | @plain c _ _ hQuote hBackslash _ ih =>
      exact append_mem_kstar (.inl ⟨c, by simp [hQuote, hBackslash], rfl⟩) ih
    | @escaped c _ _ hBreak _ ih =>
      exact append_mem_kstar (.inr ⟨_, rfl, [c], ⟨c, decide_eq_true hBreak, rfl⟩, rfl⟩) ih

theorem mem_text_iff : own ∈ text.language ↔
    ∃ body content, Token.Escapes content body ∧ own = '"' :: (body ++ ['"']) := by
  rw [language, mem_between_iff]
  constructor
  · rintro ⟨body, hBody, rfl⟩
    obtain ⟨content, hContent⟩ := mem_quoted_iff.mp hBody
    exact ⟨body, content, hContent, rfl⟩
  · rintro ⟨body, content, hContent, rfl⟩
    exact ⟨body, mem_quoted_iff.mpr ⟨content, hContent⟩, rfl⟩

theorem commentBody?_of_mem_commented (h : own ∈ commented) :
    Lexeme.commentBody? (own ++ ['*', '/']) = some (own ++ ['*', '/']) := by
  obtain ⟨rows, rfl, hRows⟩ := h
  induction rows with
  | nil => rfl
  | cons row rows ih =>
    obtain ⟨hRow, hRest⟩ := List.forall_mem_cons.mp hRows
    rcases hRow with ⟨c, hc, rfl⟩ | ⟨_, rfl, _, ⟨c, hc, rfl⟩, rfl⟩
    · rw [List.flatten_cons, List.append_assoc, List.singleton_append,
        Lexeme.commentBody?_cons (of_decide_eq_true hc), ih hRest]
      rfl
    · have hInner := ih hRest
      rw [List.flatten_cons, List.append_assoc]
      change Lexeme.commentBody? ('*' :: c :: (rows.flatten ++ ['*', '/'])) = _
      rw [Lexeme.commentBody?, if_neg (of_decide_eq_true hc), hInner]
      rfl

theorem exists_mem_commented {whole body : List Char} (h : Lexeme.commentBody? whole = some body) :
    ∃ inner ∈ commented, body = inner ++ ['*', '/'] := by
  fun_induction Lexeme.commentBody? whole generalizing body with
  | case1 => cases h
  | case2 => cases h
  | case3 rest =>
    cases h
    exact ⟨[], Language.nil_mem_kstar _, rfl⟩
  | case4 c rest hSlash ih =>
    obtain ⟨tail, hTail, rfl⟩ := Option.map_eq_some_iff.mp h
    obtain ⟨inner, hInner, rfl⟩ := ih hTail
    exact ⟨_, append_mem_kstar (.inr ⟨_, rfl, [c], ⟨c, decide_eq_true hSlash, rfl⟩, rfl⟩) hInner, rfl⟩
  | case5 c rest hEnd hBehind ih =>
    have hc : c ≠ '*' := Lexeme.ne_of_unpaired hEnd hBehind
    obtain ⟨tail, hTail, rfl⟩ := Option.map_eq_some_iff.mp h
    obtain ⟨inner, hInner, rfl⟩ := ih hTail
    exact ⟨_, append_mem_kstar (.inl ⟨c, decide_eq_true hc, rfl⟩) hInner, rfl⟩

theorem mem_blockComment_iff : own ∈ blockComment.language ↔
    ∃ body, Lexeme.commentBody? body = some body ∧ own = '/' :: '*' :: body := by
  rw [language, mem_between_iff]
  constructor
  · rintro ⟨inner, hInner, rfl⟩
    exact ⟨_, commentBody?_of_mem_commented hInner, rfl⟩
  · rintro ⟨body, hBody, rfl⟩
    obtain ⟨inner, hInner, hText⟩ := exists_mem_commented hBody
    exact ⟨inner, hInner, by rw [hText]; rfl⟩

end Membership
end Pattern
end TypedMarkup
