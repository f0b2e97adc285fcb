import Mathlib
import TypedMarkup.Proofs.Listing.Lines
import TypedMarkup.Proofs.Listing.TypeText
import TypedMarkup.Proofs.Token.Written

/-! # Reading lines back

A call is known from its line, up to how a value that is a name was referred to. Behind the builder stands a word of
its own for each kind of call, and behind the number what the call carries.
-/
namespace TypedMarkup
set_option autoImplicit false

/-! ## Values -/

namespace AttributeValue

/-- The value as code shows it, where a reference is no different from a name alone. -/
def shown : AttributeValue → AttributeValue
  | binding name => type (.named name)
  | v => v

/-- What is named is a name, and no number has a point. -/
def Legible : AttributeValue → Prop
  | float _ => False
  | type t => t.Named
  | binding name => Token.IsName name
  | _ => True

variable {v w : AttributeValue}

theorem code_shown (v : AttributeValue) : v.shown.code = v.code := by
  cases v <;> simp [shown, code]

/-- Whether a character is a quote and whether it starts a word. -/
def signs (c : Char) : Bool × Bool := (c = '"', Lexeme.startsWord c)

def firstSigns : AttributeValue → Bool × Bool
  | text _ => (true, false)
  | integer _ => (false, false)
  | float _ => (false, false)
  | _ => (false, true)

theorem signs_of_isDigit {c : Char} (h : c.isDigit = true) : signs c = (false, false) := by
  have hQuote : c ≠ '"' := by
    rintro rfl
    cases h
  simp [signs, Lexeme.startsWord_of_isDigit h, hQuote]

theorem signs_of_startsWord {c : Char} (h : Lexeme.startsWord c = true) : signs c = (false, true) := by
  have hQuote : c ≠ '"' := by
    rintro rfl
    cases h
  simp [signs, h, hQuote]

theorem exists_digit_toString (n : Nat) : ∃ c rest, (toString n).toList = c :: rest ∧ c.isDigit = true := by
  rw [Nat.toString_eq_ofList_toDigits, String.toList_ofList]
  obtain ⟨c, rest, hDigits⟩ := List.exists_cons_of_ne_nil (@Nat.toDigits_ne_nil n 10)
  have hMem : c ∈ Nat.toDigits 10 n := by simp [hDigits]
  exact ⟨c, rest, hDigits, Nat.isDigit_of_mem_toDigits (by decide) (by decide) hMem⟩

theorem head?_name {name : String} (h : Token.IsName name) : name.toList.head?.map signs = some (false, true) := by
  obtain ⟨c, rest, hName, hStart, -⟩ := h
  simp [hName, signs_of_startsWord hStart]

theorem head?_display {t : TypeExpr} (h : t.Named) : t.display.toList.head?.map signs = some (false, true) := by
  induction t using TypeExpr.ind with
  | h name args ih =>
    obtain ⟨hName, hArgs⟩ := TypeExpr.named_app_iff.mp h
    have hHead := head?_name hName
    rcases TypeExpr.display_cases name args with ⟨-, hText⟩ | ⟨a, -, rfl, hText⟩ | ⟨a, rest, rfl, hText⟩
    · rw [hText]
      exact hHead
    · have hElement := ih a List.mem_cons_self (hArgs a List.mem_cons_self)
      obtain ⟨c, hc, hSigns⟩ := Option.map_eq_some_iff.mp hElement
      rw [hText]
      simp [hc, hSigns]
    · obtain ⟨c, hc, hSigns⟩ := Option.map_eq_some_iff.mp hHead
      rw [hText]
      simp [hc, hSigns]

theorem Legible.head?_code (h : v.Legible) : v.code.toList.head?.map signs = some v.firstSigns := by
  cases v with
  | text content => simp [code, Text.quoted, signs, firstSigns, Lexeme.startsWord]
  | integer n =>
    change (toString n.toInt).toList.head?.map signs = _
    cases n.toInt with
    | ofNat m =>
      obtain ⟨c, rest, hDigits, hDigit⟩ := exists_digit_toString m
      change (toString m).toList.head?.map signs = _
      rw [hDigits, List.head?_cons, Option.map_some, signs_of_isDigit hDigit]
      rfl
    | negSucc m =>
      change ("-" ++ toString (m + 1)).toList.head?.map signs = _
      rw [String.toList_append]
      rfl
  | float x => cases h
  | truth b => cases b <;> rfl
  | type t => exact head?_display h
  | binding name => exact head?_name h

/-- A type that is written like a word is that word. -/
theorem isName_of_display {t : TypeExpr} (h : t.Named) {word : String} (hText : t.display = word)
    (hSigns : ∀ c ∈ word.toList, c ∉ "]>".toList) : Token.IsName word := by
  obtain ⟨name, args⟩ := t
  have hEnd : ∀ c ∈ "]>".toList, word.toList.getLast? ≠ some c :=
    fun c hc hLast => hSigns c (List.mem_of_getLast? hLast) hc
  subst hText
  rcases TypeExpr.display_cases name args with ⟨-, hText⟩ | ⟨a, -, rfl, hText⟩ | ⟨a, rest, rfl, hText⟩
  · rw [hText]
    exact (TypeExpr.named_app_iff.mp h).1
  · exact absurd (by rw [hText, List.getLast?_concat]) (hEnd ']' (by decide))
  · exact absurd (by rw [hText, List.getLast?_concat]) (hEnd '>' (by decide))

theorem display_ne_truth {t : TypeExpr} (h : t.Named) (b : Bool) : t.display ≠ (truth b).code := by
  intro hText
  have hPlain : ∀ c ∈ (truth b).code.toList, c ∉ "]>".toList := by cases b <;> simp [code]
  have hName := isName_of_display h hText hPlain
  cases b <;> exact absurd hName (by decide)

theorem Legible.shown (h : v.Legible) : v.shown.Legible := by
  cases v with
  | binding name => exact TypeExpr.named_named h
  | _ => exact h

theorem shown_shown (v : AttributeValue) : v.shown.shown = v.shown := by
  cases v <;> rfl

theorem eq_of_code_eq (hv : v.Legible) (hw : w.Legible) (hvShown : v.shown = v) (hwShown : w.shown = w)
    (h : v.code = w.code) : v = w := by
  have hSigns : v.firstSigns = w.firstSigns := by
    have hFirst := hv.head?_code
    rw [h, hw.head?_code] at hFirst
    exact (Option.some.inj hFirst).symm
  cases v with
  | text content =>
    cases w with
    | text content' => rw [Text.quoted_inj h]
    | float _ => cases hw
    | _ => cases hSigns
  | integer n =>
    cases w with
    | integer m => rw [Int64.toInt_inj.mp (Int.repr_inj.mp h)]
    | float _ => cases hw
    | _ => cases hSigns
  | float x => cases hv
  | truth b =>
    cases w with
    | truth b' => cases b <;> cases b' <;> simp [code] at h ⊢
    | type t => exact absurd h.symm (display_ne_truth hw b)
    | binding name => cases hwShown
    | _ => cases hSigns
  | type t =>
    cases w with
    | truth b => exact absurd h (display_ne_truth hv b)
    | type t' => rw [TypeExpr.display_inj hv hw h]
    | binding name => cases hwShown
    | _ => cases hSigns
  | binding name => cases hvShown

/-- A value is known from its code, but for how a name was referred to. -/
theorem code_inj (hv : v.Legible) (hw : w.Legible) (h : v.code = w.code) : v.shown = w.shown := by
  rw [← code_shown v, ← code_shown w] at h
  exact eq_of_code_eq hv.shown hw.shown (shown_shown v) (shown_shown w) h

end AttributeValue

/-! ## Calls -/

namespace Call

def shown : Call → Call
  | addAttribute name value => addAttribute name value.shown
  | c => c

def Legible : Call → Prop
  | addAttribute _ value => value.Legible
  | _ => True

/-- The word behind the builder. The end of a content block has neither. -/
def method : Call → String
  | openElement _ => "open_element"
  | closeElement => "close_element"
  | openComponent _ => "open_component"
  | closeComponent => "close_component"
  | addAttribute _ _ => "add_attribute"
  | addContent _ => "add_content"
  | beginContent => "add_child_content"
  | endContent => ""

def operands (builder : String) (sequence : Nat) : Call → String
  | openElement name => "(" ++ toString sequence ++ ", " ++ Text.quoted name ++ ");"
  | closeElement => "();"
  | openComponent type => "::<" ++ type ++ ">(" ++ toString sequence ++ ");"
  | closeComponent => "();"
  | addAttribute name value =>
    "(" ++ toString sequence ++ ", " ++ Text.quoted name ++ ", " ++ value.code ++ ");"
  | addContent code => "(" ++ toString sequence ++ ", " ++ code ++ ");"
  | beginContent => "(" ++ toString sequence ++ ", |" ++ builder ++ "| \x7b"
  | endContent => "\x7d);"

variable {builder : String} {sequence : Nat} {c c' : Call}

theorem code_eq (hc : c ≠ endContent) : c.code builder sequence =
    builder ++ ("." ++ (c.method ++ c.operands builder sequence)) := by
  cases c with
  | endContent => exact absurd rfl hc
  | _ => simp [code, method, operands, String.append_assoc, ← String.toList_inj]

def inMethod (c : Char) : Bool := c.isAlpha || c = '_'

theorem takeWhile_method (hc : c ≠ endContent) :
    (c.method ++ c.operands builder sequence).toList.takeWhile inMethod = c.method.toList := by
  have hMethod : ∀ d ∈ c.method.toList, inMethod d = true := by
    cases c <;> simp [method] <;> decide
  have hOperands : (c.operands builder sequence).toList.takeWhile inMethod = [] := by
    cases c <;> simp [operands, inMethod] at hc ⊢
  rw [String.toList_append, List.takeWhile_append_of_pos hMethod, hOperands, List.append_nil]

/-- The line of a call with a method tells the method and the operands. -/
theorem method_and_operands_eq (hc : c ≠ endContent) (hc' : c' ≠ endContent)
    (h : c.code builder sequence = c'.code builder sequence) :
    c.method = c'.method ∧ c.operands builder sequence = c'.operands builder sequence := by
  have hTail : c.method ++ c.operands builder sequence = c'.method ++ c'.operands builder sequence := by
    rw [code_eq hc, code_eq hc'] at h
    exact (String.append_right_inj _).mp ((String.append_right_inj _).mp h)
  have hMethod : c.method = c'.method := by
    rw [← String.toList_inj, ← @takeWhile_method builder sequence c hc, hTail, takeWhile_method hc']
  rw [hMethod] at hTail
  exact ⟨hMethod, (String.append_right_inj _).mp hTail⟩

/-- What stands around the parts of a call is the same in two calls with one method. -/
theorem operands_inj (h : c.Legible) (h' : c'.Legible) (hMethod : c.method = c'.method)
    (hOperands : c.operands builder sequence = c'.operands builder sequence) : c.shown = c'.shown := by
  cases c <;> cases c' <;> first | rfl | (simp [method] at hMethod; done) | skip
  all_goals simp only [operands, String.append_assoc, String.append_right_inj, String.append_left_inj] at hOperands
  case openElement name name' => rw [Text.quoted_inj hOperands]
  case openComponent type type' => rw [hOperands]
  case addAttribute name value name' value' =>
    have hText := congrArg String.toList hOperands
    simp only [String.toList_append] at hText
    obtain ⟨rfl, hBehind⟩ := Text.quoted_append_inj hText
    have hValue := String.toList_inj.mp (List.append_cancel_right (List.append_cancel_left hBehind))
    rw [shown, shown, AttributeValue.code_inj h h' hValue]
  case addContent code code' => rw [hOperands]

theorem code_inj (h : c.Legible) (h' : c'.Legible) (hc : c ≠ endContent) (hc' : c' ≠ endContent)
    (hCode : c.code builder sequence = c'.code builder sequence) : c.shown = c'.shown := by
  obtain ⟨hMethod, hOperands⟩ := method_and_operands_eq hc hc' hCode
  exact operands_inj h h' hMethod hOperands

theorem point_mem_code_iff : '.' ∈ (c.code builder sequence).toList ↔ c ≠ endContent := by
  cases c <;> simp [code]

theorem depth_of_ne (hc : c ≠ endContent) (blocks : Nat) : c.depth blocks = blocks := by
  cases c with
  | endContent => exact absurd rfl hc
  | _ => rfl

theorem code_shown (c : Call) (builder : String) (sequence : Nat) :
    c.shown.code builder sequence = c.code builder sequence := by
  cases c <;> simp [shown, code, AttributeValue.code_shown]

theorem depth_shown (c : Call) (blocks : Nat) : c.shown.depth blocks = c.depth blocks := by
  cases c <;> rfl

theorem depthAfter_shown (c : Call) (blocks : Nat) : c.shown.depthAfter blocks = c.depthAfter blocks := by
  cases c <;> rfl

theorem sequenceAfter_shown (c : Call) (sequence : Nat) :
    c.shown.sequenceAfter sequence = c.sequenceAfter sequence := by
  cases c <;> rfl

end Call

/-! ## Lines -/

namespace Line

theorem point_mem_text_iff {style : ListingStyle} {l : Line} :
    '.' ∈ (l.text style).toList ↔ '.' ∈ (l.call.code style.builder l.number).toList := by
  simp [text, Text.spaces]

/-- The end of a content block is the one line without a point; before the other lines there is one indent. -/
theorem call_of_text_eq (style : ListingStyle) {blocks number : Nat} {c c' : Call} (h : c.Legible) (h' : c'.Legible)
    (hText : text style ⟨c, c.depth blocks, number⟩ = text style ⟨c', c'.depth blocks, number⟩) :
    c.shown = c'.shown := by
  have hEnd : c = .endContent ↔ c' = .endContent := by
    rw [← not_iff_not, ← ne_eq, ← ne_eq, ← @Call.point_mem_code_iff style.builder number c,
      ← @Call.point_mem_code_iff style.builder number c']
    rw [← @point_mem_text_iff style ⟨c, c.depth blocks, number⟩, hText, point_mem_text_iff]
  by_cases hc : c = .endContent
  · rw [hc, hEnd.mp hc]
  · have hc' : c' ≠ .endContent := fun hEq => hc (hEnd.mpr hEq)
    rw [text, text, Call.depth_of_ne hc, Call.depth_of_ne hc'] at hText
    exact Call.code_inj h h' hc hc' ((String.append_right_inj _).mp hText)

/-- From its first line on, the calls before a line tell its indent and its number. -/
theorem calls_of_texts_eq (style : ListingStyle) {calls calls' : List Call} (h : ∀ c ∈ calls, c.Legible)
    (h' : ∀ c ∈ calls', c.Legible) (blocks number : Nat)
    (hTexts : (ofCalls blocks number calls).map (text style) = (ofCalls blocks number calls').map (text style)) :
    calls.map Call.shown = calls'.map Call.shown := by
  induction calls generalizing calls' blocks number with
  | nil =>
    cases calls' with
    | nil => rfl
    | cons c' rest' => cases hTexts
  | cons c rest ih =>
    cases calls' with
    | nil => cases hTexts
    | cons c' rest' =>
      obtain ⟨hFirst, hRest⟩ := List.forall_mem_cons.mp h
      obtain ⟨hFirst', hRest'⟩ := List.forall_mem_cons.mp h'
      obtain ⟨hHead, hTail⟩ := List.cons.inj hTexts
      have hShown := call_of_text_eq style hFirst hFirst' hHead
      rw [← Call.depthAfter_shown c, ← Call.depthAfter_shown c', ← Call.sequenceAfter_shown c,
        ← Call.sequenceAfter_shown c', hShown] at hTail
      rw [List.map_cons, List.map_cons, hShown, ih hRest hRest' _ _ hTail]

end Line

namespace ListingStyle

variable (style : ListingStyle)

theorem linesFrom_map_shown (calls : List Call) (depth sequence : Nat) :
    style.linesFrom depth sequence (calls.map Call.shown) = style.linesFrom depth sequence calls := by
  induction calls generalizing depth sequence with
  | nil => rfl
  | cons c rest ih =>
    rw [List.map_cons, linesFrom, linesFrom, Call.code_shown, Call.depth_shown, Call.depthAfter_shown,
      Call.sequenceAfter_shown, ih]

theorem write_map_shown (calls : List Call) : style.write (calls.map Call.shown) = style.write calls := by
  rw [write, write, lines, lines, linesFrom_map_shown]

/-- What is written tells the calls, up to how names were referred to. -/
theorem write_eq_iff {style : ListingStyle} (hBuilder : Text.OneLine style.builder) {calls calls' : List Call}
    (h : ∀ c ∈ calls, c.OneLine ∧ c.Legible) (h' : ∀ c ∈ calls', c.OneLine ∧ c.Legible) :
    style.write calls = style.write calls' ↔ calls.map Call.shown = calls'.map Call.shown := by
  constructor
  · intro hText
    have hSplit := Line.split_write style hBuilder fun c hc => (h c hc).1
    rw [hText, Line.split_write style hBuilder fun c hc => (h' c hc).1] at hSplit
    exact Line.calls_of_texts_eq style (fun c hc => (h c hc).2) (fun c hc => (h' c hc).2) 0 0
      (List.append_cancel_right hSplit).symm
  · intro hShown
    rw [← write_map_shown, hShown, write_map_shown]

end ListingStyle
end TypedMarkup
