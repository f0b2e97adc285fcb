import TypedMarkup.Token.Scan

/-! # Names

What an identifier token holds: a word of letters, digits and a few signs that is no keyword. Every other
token is made of something else.
-/
namespace TypedMarkup
set_option autoImplicit false

/-- A word that is no keyword. -/
def Token.IsName (name : String) : Prop :=
  ∃ c rest, name.toList = c :: rest ∧ Lexeme.startsWord c = true ∧ (∀ d ∈ rest, Lexeme.continuesWord d = true) ∧
    Keyword.ofWord? name = none

namespace Lexeme

theorem continuesWord_of_startsWord {c : Char} (h : startsWord c = true) : continuesWord c = true := by
  rw [startsWord, Bool.or_eq_true] at h
  rw [continuesWord, Char.isAlphanum]
  rcases h with h | h <;> simp [h]

/-- No word goes on with the text. -/
def EndsWord (text : List Char) : Prop := ∀ c ∈ text.head?, continuesWord c = false

theorem endsWord_nil : EndsWord [] := nofun

theorem endsWord_cons {c : Char} (h : continuesWord c = false) (rest : List Char) : EndsWord (c :: rest) := by
  rintro _ ⟨⟩
  exact h

theorem takeWhile_continuesWord {word more : List Char} (h : ∀ c ∈ word, continuesWord c = true)
    (hMore : EndsWord more) : (word ++ more).takeWhile continuesWord = word := by
  rw [List.takeWhile_append_of_pos h]
  cases more with
  | nil => simp
  | cons c rest => simp [hMore c rfl]

theorem integerMeaning_ne {t : Token} (h : ∀ n, t ≠ .integer n) (text : List Char) :
    integerMeaning text ≠ .token t := by
  rw [integerMeaning]
  split
  · split
    · simpa [eq_comm] using h _
    · simp
  · simp

theorem floatMeaning_ne {t : Token} (h : ∀ x, t ≠ .float x) (text : List Char) : floatMeaning text ≠ .token t := by
  rw [floatMeaning]
  split
  · simpa [eq_comm] using h _
  · simp

theorem numeral_ne_identifier (sign digits rest : List Char) (n : String) :
    (numeral sign digits rest).meaning ≠ .token (.identifier n) := by
  unfold numeral
  split <;> dsimp only <;> split
  · exact integerMeaning_ne (by simp) _
  · exact floatMeaning_ne (by simp) _
  · exact integerMeaning_ne (by simp) _
  · exact floatMeaning_ne (by simp) _

theorem slash_ne_identifier (rest : List Char) (n : String) : (slash rest).meaning ≠ .token (.identifier n) := by
  unfold slash
  split
  · simp [mark]
  · simp
  · split <;> simp
  · simp

theorem word_identifier {text : List Char} {n : String} (h : (word text).meaning = .token (.identifier n)) :
    n.toList = text ∧ Keyword.ofWord? n = none := by
  unfold word at h
  dsimp only at h
  split at h
  case h_1 => cases h
  case h_2 hNone =>
    cases h
    exact ⟨String.toList_ofList, hNone⟩

/-- What the lexeme names, if it is an identifier, is its own text. -/
def Names (l : Lexeme) : Prop :=
  ∀ n, l.meaning = .token (.identifier n) → n.toList = l.text ∧ Token.IsName n

theorem names_next (c : Char) (rest : List Char) : (next c rest).Names := by
  unfold next
  split
  case isTrue => exact fun n h => nomatch h
  split
  case isTrue hStart =>
    intro n h
    obtain ⟨hText, hNone⟩ := word_identifier h
    rw [word_text]
    exact ⟨hText, c, _, hText, hStart, List.all_eq_true.mp List.all_takeWhile, hNone⟩
  split
  case isTrue => exact fun n h => absurd h (numeral_ne_identifier _ _ _ n)
  split
  case h_1 =>
    dsimp only
    split
    · exact fun n h => nomatch h
    · exact fun n h => absurd h (numeral_ne_identifier _ _ _ n)
  case h_2 =>
    intro n h
    dsimp only at h
    split at h <;> cases h
  case h_3 => exact fun n h => absurd h (slash_ne_identifier rest n)
  case h_4 => split <;> exact fun n h => nomatch h
  all_goals exact fun n h => nomatch h

theorem names_of_mem_split {text : List Char} {l : Lexeme} (hl : l ∈ split text) : l.Names :=
  of_mem_split (P := Names) names_next hl

end Lexeme

namespace Token

instance (name : String) : Decidable (IsName name) :=
  match hText : name.toList with
  | [] => isFalse (by
      rintro ⟨c, rest, hName, -⟩
      rw [hText] at hName
      cases hName)
  | c :: rest =>
    decidable_of_iff (Lexeme.startsWord c = true ∧ rest.all Lexeme.continuesWord = true ∧
        Keyword.ofWord? name = none) (by
      rw [List.all_eq_true]
      constructor
      · intro h
        exact ⟨c, rest, hText, h⟩
      · rintro ⟨c', rest', hName, h⟩
        rw [hText] at hName
        cases hName
        exact h)

theorem IsName.continuesWord {name : String} (h : IsName name) :
    ∀ c ∈ name.toList, Lexeme.continuesWord c = true := by
  obtain ⟨c, rest, hName, hStart, hRest, -⟩ := h
  rw [hName]
  intro d hd
  rcases List.mem_cons.mp hd with rfl | hd
  · exact Lexeme.continuesWord_of_startsWord hStart
  · exact hRest d hd

/-- What the identifiers among the tokens hold are names. -/
def AllNames (ts : List Token) : Prop := ∀ n, .identifier n ∈ ts → IsName n

theorem AllNames.mono {own ts : List Token} (h : AllNames ts) (hOwn : own ⊆ ts) : AllNames own :=
  fun n hn => h n (hOwn hn)

end Token
end TypedMarkup
