import TypedMarkup.Proofs.Token.Cutting
import TypedMarkup.Proofs.Token.Written

/-! # The tokens in a text

Which tokens a text has, wherever it stands, and how they come one by one from the front of it.
-/
namespace TypedMarkup
set_option autoImplicit false

namespace Lexeme

/-- The token that the lexeme is, if it is one. -/
def token? (l : Lexeme) : Option Token :=
  match l.meaning with
  | .token t => some t
  | _ => none

/-- The tokens in a text. -/
def tokens (text : List Char) : List Token := (split text).filterMap token?

theorem tokens_nil : tokens [] = [] := by
  rw [tokens, split]
  rfl

theorem map_value_tokensFrom (offset : Nat) (lexemes : List Lexeme) :
    (tokensFrom offset lexemes).map Located.value = lexemes.filterMap token? := by
  induction lexemes generalizing offset with
  | nil => rfl
  | cons l rest ih =>
    obtain ⟨text, meaning⟩ := l
    cases meaning <;> simp [tokensFrom, token?, List.filterMap_cons, ih]

section Next

variable {c : Char} {rest behind : List Char} {l : Lexeme}

theorem tokens_cons (hNext : next c rest = l) (hText : c :: rest = l.text ++ behind) :
    tokens (c :: rest) = l.token?.toList ++ tokens behind := by
  rw [tokens, (split_eq_cons_iff hText).mpr ⟨hNext, rfl⟩, List.filterMap_cons]
  cases l.token? <;> rfl

theorem tokens_mark {m : Mark} (hNext : next c rest = mark m) (hText : c :: rest = m.spelling.toList ++ behind) :
    tokens (c :: rest) = .mark m :: tokens behind := tokens_cons hNext hText

theorem next_less {c : Char} (h : c ≠ '/') (rest : List Char) : next '<' (c :: rest) = mark .less := by
  have hBlank : isBlank '<' = false := rfl
  have hWord : startsWord '<' = false := rfl
  have hDigit : Char.isDigit '<' = false := rfl
  simp [next, hBlank, hWord, hDigit, h]

theorem tokens_space (rest : List Char) : tokens (' ' :: rest) = tokens rest := by
  have hBlank := congrArg (List.map Located.value) (tokensFrom_split_blank (c := ' ') (by decide) 0 rest)
  rwa [map_value_tokensFrom, map_value_tokensFrom] at hBlank

end Next

theorem tokens_name {name : String} (h : Token.IsName name) {more : List Char} (hMore : EndsWord more) :
    tokens (name.toList ++ more) = .identifier name :: tokens more := by
  obtain ⟨c, rest, hName, hNext⟩ := next_name h
  rw [hName]
  exact tokens_cons (hNext more hMore) rfl

end Lexeme

theorem Token.map_value_scan (source : String) : (scan source).map Located.value = Lexeme.tokens source.toList :=
  Lexeme.map_value_tokensFrom 0 _

end TypedMarkup
