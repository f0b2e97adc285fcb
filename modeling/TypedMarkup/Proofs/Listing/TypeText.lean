import TypedMarkup.Proofs.Compile.Names
import TypedMarkup.Proofs.Text.Quoting

/-! # Reading types back

A type is known from its text, and a component with its type arguments is known from the text that opens it. What
separates arguments are the commas outside of all angle brackets of an argument.
-/
namespace TypedMarkup
set_option autoImplicit false

namespace Text

/-- The level of angle brackets behind a text that begins at a level. There is none if an angle bracket closes, or a
comma stands, outside of all. -/
def level? : Nat → List Char → Option Nat
  | level, [] => some level
  | level, c :: rest =>
    if c = '<' then level? (level + 1) rest
    else if level = 0 ∧ (c = '>' ∨ c = ',') then none
    else level? (if c = '>' then level - 1 else level) rest

/-- At every level the text leads back to the level. -/
def Whole (text : List Char) : Prop := ∀ level, level? level text = some level

theorem level?_append (level : Nat) (text more : List Char) :
    level? level (text ++ more) = (level? level text).bind fun level' => level? level' more := by
  induction text generalizing level with
  | nil => rfl
  | cons c rest ih =>
    rw [List.cons_append, level?, level?]
    split
    · exact ih _
    split
    · rfl
    · exact ih _

theorem whole_of_plain {text : List Char} (h : ∀ c ∈ text, c ∉ "<>,".toList) : Whole text := by
  intro level
  induction text with
  | nil => rfl
  | cons c rest ih =>
    obtain ⟨hFirst, hRest⟩ := List.forall_mem_cons.mp h
    have hSigns : c ≠ '<' ∧ c ≠ '>' ∧ c ≠ ',' := by simpa using hFirst
    simp only [level?, hSigns, or_self, and_false, if_false]
    exact ih hRest

theorem Whole.append {text more : List Char} (h : Whole text) (hMore : Whole more) : Whole (text ++ more) := by
  intro level
  rw [level?_append, h level]
  exact hMore level

/-- Nothing, or a comma with more behind it. -/
def AtComma (rest : List Char) : Prop := rest = [] ∨ ∃ more, rest = ',' :: more

theorem Whole.not_append_comma {text more : List Char} (h : Whole text) : ¬ Whole (text ++ ',' :: more) := by
  intro hLonger
  have hLevel := hLonger 0
  rw [level?_append, h 0] at hLevel
  cases hLevel

theorem whole_append_inj {text text' rest rest' : List Char} (hText : Whole text) (hText' : Whole text')
    (hRest : AtComma rest) (hRest' : AtComma rest') (h : text ++ rest = text' ++ rest') :
    text = text' ∧ rest = rest' := by
  rcases List.append_eq_append_iff.mp h with ⟨more, rfl, rfl⟩ | ⟨more, rfl, rfl⟩
  · cases more with
    | nil => exact ⟨(List.append_nil _).symm, rfl⟩
    | cons c more =>
      rcases hRest with hNil | ⟨_, hComma⟩
      · cases hNil
      · cases (List.cons.inj hComma).1
        exact absurd hText' hText.not_append_comma
  · cases more with
    | nil => exact ⟨List.append_nil _, rfl⟩
    | cons c more =>
      rcases hRest' with hNil | ⟨_, hComma⟩
      · cases hNil
      · cases (List.cons.inj hComma).1
        exact absurd hText hText'.not_append_comma

/-- Texts with a comma and a space in front of each. -/
def rows (texts : List String) : List Char := texts.flatMap fun text => ',' :: ' ' :: text.toList

theorem atComma_rows (texts : List String) : AtComma (rows texts) := by
  cases texts with
  | nil => exact .inl rfl
  | cons text rest => exact .inr ⟨_, rfl⟩

theorem rows_inj {texts texts' : List String} (h : ∀ text ∈ texts, Whole text.toList)
    (h' : ∀ text ∈ texts', Whole text.toList) (hRows : rows texts = rows texts') : texts = texts' := by
  induction texts generalizing texts' with
  | nil =>
    cases texts' with
    | nil => rfl
    | cons text' rest' => cases hRows
  | cons text rest ih =>
    cases texts' with
    | nil => cases hRows
    | cons text' rest' =>
      obtain ⟨hFirst, hRest⟩ := List.forall_mem_cons.mp h
      obtain ⟨hFirst', hRest'⟩ := List.forall_mem_cons.mp h'
      have hTail : text.toList ++ rows rest = text'.toList ++ rows rest' := (List.cons.inj (List.cons.inj hRows).2).2
      obtain ⟨hText, hBehind⟩ := whole_append_inj hFirst hFirst' (atComma_rows rest) (atComma_rows rest') hTail
      rw [String.toList_inj.mp hText, ih hRest hRest' hBehind]

theorem rows_cons_inj {text text' : String} {rest rest' : List String} (h : ∀ t ∈ text :: rest, Whole t.toList)
    (h' : ∀ t ∈ text' :: rest', Whole t.toList) (hRows : text.toList ++ rows rest = text'.toList ++ rows rest') :
    text :: rest = text' :: rest' :=
  rows_inj h h' (congrArg (fun tail => ',' :: ' ' :: tail) hRows)

theorem toList_intercalate_cons (text : String) (rest : List String) :
    (", ".intercalate (text :: rest)).toList = text.toList ++ rows rest := by
  induction rest generalizing text with
  | nil => simp [rows]
  | cons next rest ih =>
    have hNext := ih next
    rw [String.toList_intercalate, List.map_cons] at hNext ⊢
    rw [List.map_cons, List.intercalate_cons_cons, hNext]
    simp [rows]

end Text

theorem eq_of_map_eq {α β : Type} {f : α → β} {as bs : List α} (hInj : ∀ a ∈ as, ∀ b ∈ bs, f a = f b → a = b)
    (h : as.map f = bs.map f) : as = bs := by
  induction as generalizing bs with
  | nil => exact (List.map_eq_nil_iff.mp h.symm).symm
  | cons a as ih =>
    obtain ⟨b, bs, rfl, hFirst, hRest⟩ := List.map_eq_cons_iff.mp h.symm
    rw [hInj a List.mem_cons_self b List.mem_cons_self hFirst.symm]
    rw [ih (fun a' ha' b' hb' => hInj a' (List.mem_cons_of_mem _ ha') b' (List.mem_cons_of_mem _ hb')) hRest.symm]

namespace TypeExpr
open Text

theorem toList_displayRest (ts : List TypeExpr) : (displayRest ts).toList = rows (ts.map display) := by
  induction ts with
  | nil => rfl
  | cons t rest ih => simp [displayRest, rows, ih]

/-- A name alone, an array with its suffix, or a name with arguments between angle brackets. -/
theorem display_cases (name : String) (args : List TypeExpr) :
    (args = [] ∧ (app name args).display = name) ∨
    (∃ a, name = arrayName ∧ args = [a] ∧ (app name args).display.toList = a.display.toList ++ ['['] ++ [']']) ∨
    ∃ a rest, args = a :: rest ∧ (app name args).display.toList =
      name.toList ++ '<' :: (a.display.toList ++ rows (rest.map display)) ++ ['>'] := by
  cases args with
  | nil => exact .inl ⟨rfl, rfl⟩
  | cons a rest =>
    rw [display]
    split
    case isTrue h =>
      obtain ⟨rfl, hRest⟩ := h
      obtain rfl := List.isEmpty_iff.mp hRest
      exact .inr (.inl ⟨a, rfl, rfl, by simp⟩)
    case isFalse => exact .inr (.inr ⟨a, rest, rfl, by simp [toList_displayRest]⟩)

theorem named_app_iff {name : String} {args : List TypeExpr} :
    (app name args).Named ↔ Token.IsName name ∧ ∀ a ∈ args, a.Named := by
  rw [Named, names_app, List.forall_mem_cons]
  simp only [Named, List.mem_flatMap]
  constructor
  · rintro ⟨hName, hArgs⟩
    exact ⟨hName, fun a ha n hn => hArgs n ⟨a, ha, hn⟩⟩
  · rintro ⟨hName, hArgs⟩
    refine ⟨hName, ?_⟩
    rintro n ⟨a, ha, hn⟩
    exact hArgs a ha n hn

end TypeExpr

theorem Token.IsName.whole {name : String} (h : IsName name) : Text.Whole name.toList := by
  apply Text.whole_of_plain
  intro c hc
  have hWord := h.continuesWord c hc
  have hSigns : c ≠ '<' ∧ c ≠ '>' ∧ c ≠ ',' := by
    refine ⟨?_, ?_, ?_⟩ <;>
    · rintro rfl
      exact absurd hWord (by decide)
  simpa using hSigns

namespace TypeExpr
open Text

theorem whole_rows {texts : List String} (h : ∀ text ∈ texts, Whole text.toList) (level : Nat) :
    level? (level + 1) (rows texts) = some (level + 1) := by
  induction texts with
  | nil => rfl
  | cons text rest ih =>
    obtain ⟨hFirst, hRest⟩ := List.forall_mem_cons.mp h
    have hRows : rows (text :: rest) = ',' :: ' ' :: (text.toList ++ rows rest) := rfl
    simp [hRows, level?, level?_append, hFirst (level + 1), ih hRest]

theorem Named.whole_display {t : TypeExpr} (h : t.Named) : Whole t.display.toList := by
  induction t using ind with
  | h name args ih =>
    obtain ⟨hName, hArgs⟩ := named_app_iff.mp h
    have hEach : ∀ a ∈ args, Whole a.display.toList := fun a ha => ih a ha (hArgs a ha)
    rcases display_cases name args with ⟨-, hText⟩ | ⟨a, -, rfl, hText⟩ | ⟨a, rest, rfl, hText⟩
    · rw [hText]
      exact hName.whole
    · rw [hText]
      exact ((hEach a List.mem_cons_self).append (whole_of_plain (by simp))).append (whole_of_plain (by simp))
    · -- Between the brackets the level is one more, and there commas may stand.
      have hRest : ∀ text ∈ rest.map display, Whole text.toList := by
        rw [List.forall_mem_map]
        exact fun a' ha' => hEach a' (List.mem_cons_of_mem _ ha')
      intro level
      rw [hText, List.append_assoc, level?_append, hName.whole level]
      simp [level?, level?_append, hEach a List.mem_cons_self (level + 1), whole_rows hRest level]

/-- The last character tells the ways in which types are written from one another. -/
theorem display_inj {s t : TypeExpr} (hs : s.Named) (ht : t.Named) (h : s.display = t.display) : s = t := by
  induction s using ind generalizing t with
  | h n as ih =>
    obtain ⟨m, bs⟩ := t
    obtain ⟨hn, has⟩ := named_app_iff.mp hs
    obtain ⟨hm, hbs⟩ := named_app_iff.mp ht
    have hLast (name : String) (hName : Token.IsName name) (c : Char) (hc : ¬ Lexeme.continuesWord c = true) :
        name.toList.getLast? ≠ some c := fun hEnd => hName.not_mem hc (List.mem_of_getLast? hEnd)
    have hText := congrArg String.toList h
    have hEnd := congrArg List.getLast? hText
    rcases display_cases n as with ⟨rfl, hLeft⟩ | ⟨a, rfl, rfl, hLeft⟩ | ⟨a, rest, rfl, hLeft⟩ <;>
      rcases display_cases m bs with ⟨rfl, hRight⟩ | ⟨b, rfl, rfl, hRight⟩ | ⟨b, rest', rfl, hRight⟩ <;>
      rw [hLeft, hRight] at hEnd
    case inl.inl => rw [← hLeft, h, hRight]
    case inl.inr.inl => exact absurd (by simpa only [List.getLast?_concat] using hEnd) (hLast n hn ']' (by decide))
    case inl.inr.inr => exact absurd (by simpa only [List.getLast?_concat] using hEnd) (hLast n hn '>' (by decide))
    case inr.inl.inl => exact absurd (by simpa only [List.getLast?_concat] using hEnd.symm) (hLast m hm ']' (by decide))
    case inr.inl.inr.inl =>
      rw [hLeft, hRight] at hText
      have hElement := String.toList_inj.mp (List.append_cancel_right (List.append_cancel_right hText))
      rw [ih a List.mem_cons_self (has a List.mem_cons_self) (hbs b List.mem_cons_self) hElement]
    case inr.inl.inr.inr => simp only [List.getLast?_concat, Option.some.injEq, Char.reduceEq] at hEnd
    case inr.inr.inl => exact absurd (by simpa only [List.getLast?_concat] using hEnd.symm) (hLast m hm '>' (by decide))
    case inr.inr.inr.inl => simp only [List.getLast?_concat, Option.some.injEq, Char.reduceEq] at hEnd
    case inr.inr.inr.inr =>
      rw [hLeft, hRight] at hText
      obtain ⟨hName, hArgs⟩ :=
        append_cons_inj (hn.not_mem (by decide)) (hm.not_mem (by decide)) (List.append_cancel_right hText)
      have hWhole : ∀ ts : List TypeExpr, (∀ t ∈ ts, t.Named) → ∀ text ∈ ts.map display, Whole text.toList := by
        intro ts hts
        rw [List.forall_mem_map]
        exact fun t ht => (hts t ht).whole_display
      have hTexts := rows_cons_inj (hWhole _ has) (hWhole _ hbs) hArgs
      rw [String.toList_inj.mp hName]
      rw [eq_of_map_eq (fun s hs t ht => ih s hs (has s hs) (hbs t ht)) hTexts]

end TypeExpr

/-! ## Components with type arguments -/

section Components
open Text

theorem componentType_nil (name : String) : componentType name [] = name := rfl

theorem toList_componentType_cons (name : String) (arg : Option TypeExpr) (rest : List (Option TypeExpr)) :
    (componentType name (arg :: rest)).toList =
      name.toList ++ '<' :: ((argText arg).toList ++ rows (rest.map argText)) ++ ['>'] := by
  have hTexts : componentType name (arg :: rest) =
      name ++ "<" ++ ", ".intercalate (argText arg :: rest.map argText) ++ ">" := rfl
  rw [hTexts, String.toList_append, String.toList_append, toList_intercalate_cons]
  simp

theorem whole_argText {arg : Option TypeExpr} (h : ∀ t, arg = some t → t.Named) : Whole (argText arg).toList := by
  cases arg with
  | none => exact whole_of_plain (by simp [argText])
  | some t => exact (h t rfl).whole_display

theorem argText_inj {arg arg' : Option TypeExpr} (h : ∀ t, arg = some t → t.Named) (h' : ∀ t, arg' = some t → t.Named)
    (hText : argText arg = argText arg') : arg = arg' := by
  have hKnown (t : TypeExpr) (ht : t.Named) : t.display ≠ "?" := by
    intro hEq
    exact ht.not_mem (show ¬ Lexeme.continuesWord '?' = true by decide) (by decide) (by rw [hEq]; decide)
  cases arg with
  | none =>
    cases arg' with
    | none => rfl
    | some t' => exact absurd hText.symm (hKnown t' (h' t' rfl))
  | some t =>
    cases arg' with
    | none => exact absurd hText (hKnown t (h t rfl))
    | some t' => rw [TypeExpr.display_inj (h t rfl) (h' t' rfl) hText]

/-- What opens a component tells its name and its type arguments. -/
theorem componentType_inj {name name' : String} {args args' : List (Option TypeExpr)} (hName : Token.IsName name)
    (hName' : Token.IsName name') (hArgs : ∀ t, some t ∈ args → t.Named) (hArgs' : ∀ t, some t ∈ args' → t.Named)
    (h : componentType name args = componentType name' args') : name = name' ∧ args = args' := by
  have hBracket {n : String} (hn : Token.IsName n) : '<' ∉ n.toList := hn.not_mem (by decide)
  have hText := congrArg String.toList h
  cases args with
  | nil =>
    cases args' with
    | nil => exact ⟨h, rfl⟩
    | cons arg' rest' =>
      rw [componentType_nil, toList_componentType_cons] at hText
      exact absurd (by simp [hText]) (hBracket hName)
  | cons arg rest =>
    cases args' with
    | nil =>
      rw [componentType_nil, toList_componentType_cons] at hText
      exact absurd (by simp [← hText]) (hBracket hName')
    | cons arg' rest' =>
      rw [toList_componentType_cons, toList_componentType_cons] at hText
      obtain ⟨hNames, hTexts⟩ :=
        append_cons_inj (hBracket hName) (hBracket hName') (List.append_cancel_right hText)
      have hWhole {own : List (Option TypeExpr)} (hOwn : ∀ t, some t ∈ own → t.Named) :
          ∀ text ∈ own.map argText, Whole text.toList := by
        rw [List.forall_mem_map]
        intro a ha
        exact whole_argText (by rintro t rfl; exact hOwn t ha)
      refine ⟨String.toList_inj.mp hNames, ?_⟩
      refine eq_of_map_eq ?_ (rows_cons_inj (hWhole hArgs) (hWhole hArgs') hTexts)
      intro a ha a' ha' hSame
      exact argText_inj (by rintro t rfl; exact hArgs t ha) (by rintro t rfl; exact hArgs' t ha') hSame

end Components
end TypedMarkup
