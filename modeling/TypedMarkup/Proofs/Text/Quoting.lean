import Mathlib.Data.List.Basic
import TypedMarkup.Text.Quoted

/-! # Reading quoted text back

No two characters are escaped alike, and none so that it could be taken for a closing quote. A quoted text ends at
its own closing quote, whatever stands behind it.
-/
namespace TypedMarkup.Text
set_option autoImplicit false

theorem digitChar_inj {m n : Nat} (hm : m < 16) (hn : n < 16) (h : m.digitChar = n.digitChar) : m = n := by
  revert h
  revert n
  revert m
  decide

theorem toDigits_inj {base : Nat} (hBase : 1 < base) (hSmall : base ≤ 16) {m n : Nat}
    (h : Nat.toDigits base m = Nat.toDigits base n) : m = n := by
  induction m using Nat.strongRecOn generalizing n with
  | ind m ih =>
    have hPositive : 0 < base := by omega
    have hDigit (k : Nat) : k % base < 16 := Nat.lt_of_lt_of_le (Nat.mod_lt k hPositive) hSmall
    rw [@Nat.toDigits_eq_if base m hBase, @Nat.toDigits_eq_if base n hBase] at h
    split at h <;> split at h
    case isTrue.isTrue hm hn => exact digitChar_inj (by omega) (by omega) (List.singleton_inj.mp h)
    case isTrue.isFalse => simp [List.singleton_eq_append_iff, Nat.toDigits_ne_nil] at h
    case isFalse.isTrue => simp [List.append_eq_singleton_iff, Nat.toDigits_ne_nil] at h
    case isFalse.isFalse hm hn =>
      obtain ⟨hHigh, hLow⟩ := List.append_inj' h rfl
      have hQuotient := ih (m / base) (Nat.div_lt_self (by omega) hBase) hHigh
      have hRemainder := digitChar_inj (hDigit m) (hDigit n) (List.singleton_inj.mp hLow)
      rw [← Nat.div_add_mod m base, ← Nat.div_add_mod n base, hQuotient, hRemainder]

/-- What stands in front of a separator that is not in it is known. -/
theorem append_cons_inj {α : Type} {a : α} {as bs rest rest' : List α} (ha : a ∉ as) (hb : a ∉ bs)
    (h : as ++ a :: rest = bs ++ a :: rest') : as = bs ∧ rest = rest' := by
  induction as generalizing bs with
  | nil =>
    cases bs with
    | nil => exact ⟨rfl, (List.cons.inj h).2⟩
    | cons b bs =>
      cases (List.cons.inj h).1
      exact absurd List.mem_cons_self hb
  | cons c as ih =>
    cases bs with
    | nil =>
      cases (List.cons.inj h).1
      exact absurd List.mem_cons_self ha
    | cons b bs =>
      obtain ⟨rfl, hTail⟩ := List.cons.inj h
      obtain ⟨rfl, hRest⟩ := ih (List.not_mem_of_not_mem_cons ha) (List.not_mem_of_not_mem_cons hb) hTail
      exact ⟨rfl, hRest⟩

theorem not_mem_toDigits {x : Char} (hDigit : ∀ m, Nat.digitChar m ≠ x) {base : Nat} (hBase : 1 < base) (n : Nat) :
    x ∉ Nat.toDigits base n := by
  induction n using Nat.strongRecOn with
  | ind n ih =>
    rw [Nat.toDigits_eq_if hBase]
    split
    case isTrue => simp [(hDigit _).symm]
    case isFalse hLarge => simp [ih (n / base) (Nat.div_lt_self (by omega) hBase), (hDigit _).symm]

theorem codePoint_append_inj {c d : Char} {rest rest' : List Char} (h : codePoint c ++ rest = codePoint d ++ rest') :
    c = d ∧ rest = rest' := by
  simp only [codePoint, List.cons_append, List.append_assoc, List.cons.injEq, true_and, List.nil_append] at h
  have hBrace : ∀ n, '\x7d' ∉ Nat.toDigits 16 n := not_mem_toDigits (fun _ => Nat.digitChar_ne '\x7d' rfl) (by decide)
  obtain ⟨hDigits, hRest⟩ := append_cons_inj (hBrace _) (hBrace _) h
  exact ⟨Char.toNat_inj.mp (toDigits_inj (by decide) (by decide) hDigits), hRest⟩

/-- The three ways in which a character is written. -/
theorem escapeChar_cases (c : Char) :
    (∃ l, escapeLetter? c = some l ∧ escapeChar c = ['\\', l]) ∨
      (c ≠ '\\' ∧ c ≠ '"' ∧ escapeChar c = [c]) ∨ escapeChar c = codePoint c := by
  rw [escapeChar]
  split
  case h_1 l hLetter => exact .inl ⟨l, hLetter, rfl⟩
  case h_2 hNone =>
    split
    · refine .inr (.inl ⟨?_, ?_, rfl⟩) <;>
      · rintro rfl
        cases hNone
    · exact .inr (.inr rfl)

theorem escapeLetter?_inj {c d l : Char} (hc : escapeLetter? c = some l) (hd : escapeLetter? d = some l) : c = d := by
  unfold escapeLetter? at hc hd
  split at hc <;> cases hc <;> split at hd <;> first | rfl | cases hd

theorem escapeLetter?_ne_u (c : Char) : escapeLetter? c ≠ some 'u' := by
  unfold escapeLetter?
  split <;> simp

theorem escapeChar_append_inj {c d : Char} {rest rest' : List Char}
    (h : escapeChar c ++ rest = escapeChar d ++ rest') : c = d ∧ rest = rest' := by
  rcases escapeChar_cases c with ⟨l, hc, hText⟩ | ⟨hc, -, hText⟩ | hText <;>
    rcases escapeChar_cases d with ⟨l', hd, hText'⟩ | ⟨hd, -, hText'⟩ | hText' <;> rw [hText, hText'] at h
  · obtain ⟨rfl, hRest⟩ := List.cons.inj (List.cons.inj h).2
    exact ⟨escapeLetter?_inj hc hd, hRest⟩
  · exact absurd (List.cons.inj h).1.symm hd
  · obtain ⟨rfl, -⟩ := List.cons.inj (List.cons.inj h).2
    exact absurd hc (escapeLetter?_ne_u c)
  · exact absurd (List.cons.inj h).1 hc
  · exact List.cons.inj h
  · exact absurd (List.cons.inj h).1 hc
  · obtain ⟨rfl, -⟩ := List.cons.inj (List.cons.inj h).2
    exact absurd hd (escapeLetter?_ne_u d)
  · exact absurd (List.cons.inj h).1.symm hd
  · exact codePoint_append_inj h

theorem escapeChar_ne_quote (c : Char) (rest rest' : List Char) : escapeChar c ++ rest ≠ '"' :: rest' := by
  intro h
  rcases escapeChar_cases c with ⟨l, -, hText⟩ | ⟨-, hQuote, hText⟩ | hText <;> rw [hText] at h
  · cases (List.cons.inj h).1
  · exact hQuote (List.cons.inj h).1
  · cases (List.cons.inj h).1

theorem escape_append_inj {text text' rest rest' : List Char}
    (h : escape text ++ '"' :: rest = escape text' ++ '"' :: rest') : text = text' ∧ rest = rest' := by
  induction text generalizing text' with
  | nil =>
    cases text' with
    | nil => exact ⟨rfl, (List.cons.inj h).2⟩
    | cons d text' =>
      rw [escape_cons, List.append_assoc] at h
      exact absurd h.symm (escapeChar_ne_quote d _ _)
  | cons c text ih =>
    rw [escape_cons, List.append_assoc] at h
    cases text' with
    | nil => exact absurd h (escapeChar_ne_quote c _ _)
    | cons d text' =>
      rw [escape_cons, List.append_assoc] at h
      obtain ⟨rfl, hTail⟩ := escapeChar_append_inj h
      obtain ⟨rfl, hRest⟩ := ih hTail
      exact ⟨rfl, hRest⟩

/-- A quoted text and what stands behind it are known from both together. -/
theorem quoted_append_inj {text text' : String} {rest rest' : List Char}
    (h : (quoted text).toList ++ rest = (quoted text').toList ++ rest') : text = text' ∧ rest = rest' := by
  simp only [quoted, String.toList_ofList, List.cons_append, List.append_assoc, List.nil_append, List.cons.injEq,
    true_and] at h
  obtain ⟨hText, hRest⟩ := escape_append_inj h
  exact ⟨String.toList_inj.mp hText, hRest⟩

theorem quoted_inj {text text' : String} (h : quoted text = quoted text') : text = text' :=
  (quoted_append_inj (congrArg (fun quote => String.toList quote ++ []) h)).1

end TypedMarkup.Text
