import TypedMarkup.Proofs.Document.Parsing
import TypedMarkup.Proofs.Listing.TypeText
import TypedMarkup.Proofs.Token.Values

/-! # Types read from their texts

The tokens in the text of a type spell the type, so that the text is read as that type. A word in it ends where an
angle bracket, a square bracket or a comma stands.
-/
namespace TypedMarkup
set_option autoImplicit false
open Spelling

/-- In front of what no word goes on with, the text has these tokens, and behind them those of what stands there. -/
def Lexeme.Writes (text : List Char) (ts : List Token) : Prop :=
  ∀ more, EndsWord more → tokens (text ++ more) = ts ++ tokens more

namespace TypeExpr
open Lexeme Text

theorem Named.exists_startsWord {t : TypeExpr} (h : t.Named) :
    ∃ c rest, t.display.toList = c :: rest ∧ startsWord c = true := by
  induction t using ind with
  | h name args ih =>
    obtain ⟨hName, hArgs⟩ := named_app_iff.mp h
    obtain ⟨c, rest, hText, hStart, -⟩ := hName
    rcases display_cases name args with ⟨-, hDisplay⟩ | ⟨a, -, rfl, hDisplay⟩ | ⟨a, others, -, hDisplay⟩
    · exact ⟨c, rest, by rw [hDisplay, hText], hStart⟩
    · obtain ⟨c', rest', hText', hStart'⟩ := ih a List.mem_cons_self (hArgs a List.mem_cons_self)
      exact ⟨c', _, by rw [hDisplay, hText']; rfl, hStart'⟩
    · exact ⟨c, _, by rw [hDisplay, hText]; rfl, hStart⟩

theorem Named.tokens_less {t : TypeExpr} (h : t.Named) (more : List Char) :
    tokens ('<' :: (t.display.toList ++ more)) = .mark .less :: tokens (t.display.toList ++ more) := by
  obtain ⟨c, rest, hText, hStart⟩ := h.exists_startsWord
  have hSlash : c ≠ '/' := by
    rintro rfl
    cases hStart
  rw [hText]
  exact tokens_mark (next_less hSlash _) rfl

/-- Types with a comma and a space in front of each go on with a series of types. -/
theorem exists_writes_rows {args : List TypeExpr}
    (h : ∀ a ∈ args, ∃ ts, a.Spelled ts ∧ Writes a.display.toList ts) :
    ∃ ts, Writes (rows (args.map display)) ts ∧
      ∀ first own, Spelled first own → Separated .comma Spelled (first :: args) (own ++ ts) := by
  induction args with
  | nil =>
    refine ⟨[], fun more _ => rfl, ?_⟩
    intro first own hFirst
    rw [List.append_nil]
    exact .last hFirst
  | cons a rest ih =>
    obtain ⟨hHead, hRest⟩ := List.forall_mem_cons.mp h
    obtain ⟨ts, hSpelled, hWrites⟩ := hHead
    obtain ⟨ts', hWrites', hSeries⟩ := ih hRest
    refine ⟨.mark .comma :: (ts ++ ts'), ?_, fun first own hFirst => .cons hFirst (hSeries a ts hSpelled)⟩
    intro more hMore
    have hBehind : EndsWord (rows (rest.map display) ++ more) := by
      cases rest with
      | nil => exact hMore
      | cons b rest => exact endsWord_cons (by decide) _
    have hComma : ∀ text, tokens (',' :: text) = .mark .comma :: tokens text := fun _ => tokens_mark rfl rfl
    change tokens (',' :: ' ' :: (a.display.toList ++ rows (rest.map display)) ++ more) = _
    rw [List.cons_append, List.cons_append, hComma, tokens_space, List.append_assoc, hWrites _ hBehind,
      hWrites' more hMore, List.cons_append, List.append_assoc]

theorem Named.exists_writes {t : TypeExpr} (h : t.Named) : ∃ ts, t.Spelled ts ∧ Writes t.display.toList ts := by
  induction t using ind with
  | h name args ih =>
    obtain ⟨hName, hArgs⟩ := named_app_iff.mp h
    have hEach : ∀ a ∈ args, ∃ ts, a.Spelled ts ∧ Writes a.display.toList ts := fun a ha => ih a ha (hArgs a ha)
    rcases display_cases name args with ⟨rfl, hText⟩ | ⟨a, rfl, rfl, hText⟩ | ⟨a, rest, rfl, hText⟩
    · refine ⟨[.identifier name], .named name, ?_⟩
      intro more hMore
      rw [hText, tokens_name hName hMore]
      rfl
    · obtain ⟨ts, hSpelled, hWrites⟩ := hEach a List.mem_cons_self
      have hOpen : ∀ text, tokens ('[' :: text) = .mark .bracketOpen :: tokens text := fun _ => tokens_mark rfl rfl
      have hClose : ∀ text, tokens (']' :: text) = .mark .bracketClose :: tokens text := fun _ => tokens_mark rfl rfl
      refine ⟨_, Spelled.array hSpelled, ?_⟩
      intro more _
      have hBracket : EndsWord ('[' :: ']' :: more) := endsWord_cons (by decide) _
      simp [hText, hWrites _ hBracket, hOpen, hClose]
    · obtain ⟨hFirst, hRest⟩ := List.forall_mem_cons.mp hEach
      obtain ⟨ts, hSpelled, hWrites⟩ := hFirst
      obtain ⟨ts', hWrites', hSeries⟩ := exists_writes_rows hRest
      have hGreater : ∀ text, tokens ('>' :: text) = .mark .greater :: tokens text := fun _ => tokens_mark rfl rfl
      refine ⟨_, .applied (hSeries a ts hSpelled), ?_⟩
      intro more _
      have hLess : EndsWord ('<' :: (a.display.toList ++ (rows (rest.map display) ++ '>' :: more))) :=
        endsWord_cons (by decide) _
      have hEnd : EndsWord ('>' :: more) := endsWord_cons (by decide) _
      have hRows : EndsWord (rows (rest.map display) ++ '>' :: more) := by
        cases rest with
        | nil => exact hEnd
        | cons b rest => exact endsWord_cons (by decide) _
      calc
        tokens ((app name (a :: rest)).display.toList ++ more) =
            tokens (name.toList ++ '<' :: (a.display.toList ++ (rows (rest.map display) ++ '>' :: more))) := by
          simp [hText]
        _ = .identifier name :: .mark .less :: (ts ++ (ts' ++ .mark .greater :: tokens more)) := by
          rw [tokens_name hName hLess, (hArgs a List.mem_cons_self).tokens_less, hWrites _ hRows, hWrites' _ hEnd,
            hGreater]
        _ = .identifier name :: .mark .less :: (ts ++ ts' ++ [.mark .greater]) ++ tokens more := by simp

/-- The text of a type whose names are words is read as that type. -/
theorem Named.parse?_display {t : TypeExpr} (h : t.Named) : parse? t.display = some t := by
  obtain ⟨ts, hSpelled, hWrites⟩ := h.exists_writes
  have hTokens := hWrites [] endsWord_nil
  rw [List.append_nil, tokens_nil, List.append_nil] at hTokens
  rw [parse?_eq_some_iff, Token.map_value_scan, hTokens]
  exact hSpelled

end TypeExpr
end TypedMarkup
