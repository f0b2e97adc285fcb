import TypedMarkup.Number.Numeral
import TypedMarkup.Token.Basic

/-! # Scanning

A source is cut into lexemes, whose texts together are the source. A lexeme is a token, or blank
(white space and comments), or stray: text that is dropped because no token starts with it, or
because a literal or comment is never closed or out of range.
-/
namespace TypedMarkup
set_option autoImplicit false

inductive Lexeme.Meaning where
  | token (t : Token)
  | blank
  | stray
deriving DecidableEq

structure Lexeme where
  text : List Char
  meaning : Lexeme.Meaning
deriving DecidableEq

namespace Lexeme

def isBlank (c : Char) : Bool := c = ' ' || c = '\t' || c = '\n' || c = '\r'

/-- Identifiers are written in ASCII. -/
def startsWord (c : Char) : Bool := c.isAlpha || c = '_'

def continuesWord (c : Char) : Bool := c.isAlphanum || c = '_' || c = '.' || c = '-'

/-- The characters of a comment body up to its closing mark, which is included. A star takes the
next character with it unless that is a slash. -/
def commentBody? : List Char → Option (List Char)
  | [] => none
  | ['*'] => none
  | '*' :: c :: rest =>
    if c = '/' then some ['*', '/'] else (commentBody? rest).map ('*' :: c :: ·)
  | c :: rest => (commentBody? rest).map (c :: ·)

theorem commentBody?_isPrefix {text body : List Char} (h : commentBody? text = some body) : body <+: text := by
  fun_induction commentBody? text generalizing body with
  | case1 => cases h
  | case2 => cases h
  | case3 rest => cases h; simp
  | case4 c rest _ ih =>
    obtain ⟨inner, hInner, rfl⟩ := Option.map_eq_some_iff.mp h
    simpa using ih hInner
  | case5 c rest _ _ ih =>
    obtain ⟨inner, hInner, rfl⟩ := Option.map_eq_some_iff.mp h
    simpa using ih hInner

/-- What follows an opening quote, up to the closing quote or to where no text can go on: a
backslash at the end of a line or of the source, or the end of the source. -/
def quotedBody : List Char → List Char × Bool
  | [] => ([], false)
  | ['\\'] => (['\\'], false)
  | '\\' :: c :: rest =>
    if c = '\n' then (['\\'], false)
    else
      let (body, closed) := quotedBody rest
      ('\\' :: c :: body, closed)
  | c :: rest =>
    if c = '"' then (['"'], true)
    else
      let (body, closed) := quotedBody rest
      (c :: body, closed)

theorem quotedBody_isPrefix (text : List Char) : (quotedBody text).1 <+: text := by
  fun_induction quotedBody text <;> simp_all

/-- The character that a backslash and this character stand for. -/
def unescapeChar : Char → Char
  | 'n' => '\n'
  | 't' => '\t'
  | 'r' => '\r'
  | c => c

def unescape : List Char → List Char
  | [] => []
  | ['\\'] => ['\\']
  | '\\' :: c :: rest => unescapeChar c :: unescape rest
  | c :: rest => c :: unescape rest

/-- The text that a literal in quotes stands for. -/
def content (literal : List Char) : String :=
  String.ofList (unescape ((literal.drop 1).take (literal.length - 2)))

/-- The integer token that a numeral writes; there is none beyond 64 bits. -/
def integerMeaning (text : List Char) : Meaning :=
  match Numeral.integer? text with
  | some n => if Int64.minValue.toInt ≤ n ∧ n ≤ Int64.maxValue.toInt then .token (.integer (Int64.ofInt n)) else .stray
  | none => .stray

def floatMeaning (text : List Char) : Meaning :=
  match Numeral.binary64? text with
  | some x => .token (.float x)
  | none => .stray

/-- A numeral after its optional sign: digits, and a point with digits if both are there. -/
def numeral (sign digits rest : List Char) : Lexeme :=
  let fraction :=
    match rest with
    | '.' :: rest => rest.takeWhile Char.isDigit
    | _ => []
  if fraction.isEmpty then ⟨sign ++ digits, integerMeaning (sign ++ digits)⟩
  else
    let text := sign ++ digits ++ '.' :: fraction
    ⟨text, floatMeaning text⟩

theorem numeral_isPrefix (sign digits rest : List Char) :
    (numeral sign digits rest).text <+: sign ++ digits ++ rest := by
  unfold numeral
  split
  case h_1 rest =>
    dsimp only
    split
    · exact List.prefix_append _ _
    · simpa using List.takeWhile_prefix _
  case h_2 => exact List.prefix_append _ _

theorem numeral_text_ne_nil {sign digits : List Char} (rest : List Char) (h : digits ≠ []) :
    (numeral sign digits rest).text ≠ [] := by
  unfold numeral
  split <;> dsimp only <;> split <;> simp [h]

def word (text : List Char) : Lexeme :=
  let name := String.ofList text
  match Keyword.ofWord? name with
  | some k => ⟨text, .token (.keyword k)⟩
  | none => ⟨text, .token (.identifier name)⟩

@[simp] theorem word_text (text : List Char) : (word text).text = text := by
  unfold word
  dsimp only
  split <;> rfl

def mark (m : Mark) : Lexeme := ⟨m.spelling.toList, .token (.mark m)⟩

/-- What begins with a slash: a comment, or the end of a tag that closes itself. -/
def slash : List Char → Lexeme
  | '>' :: _ => mark .slashGreater
  | '/' :: rest => ⟨'/' :: '/' :: rest.takeWhile (· ≠ '\n'), .blank⟩
  | '*' :: rest =>
    match commentBody? rest with
    | some body => ⟨'/' :: '*' :: body, .blank⟩
    | none => ⟨'/' :: '*' :: rest, .stray⟩
  | _ => ⟨['/'], .stray⟩

theorem slash_isPrefix (rest : List Char) : (slash rest).text <+: '/' :: rest := by
  unfold slash
  split
  · simp [mark, Mark.spelling]
  · simpa using List.takeWhile_prefix _
  · split
    case h_1 body hBody => simpa using commentBody?_isPrefix hBody
    case h_2 => exact List.prefix_rfl
  · simp

theorem slash_text_ne_nil (rest : List Char) : (slash rest).text ≠ [] := by
  unfold slash
  split
  · simp [mark, Mark.spelling]
  · simp
  · split <;> simp
  · simp

/-- The lexeme that begins with this character and goes on into the text behind it. -/
def next (c : Char) (rest : List Char) : Lexeme :=
  if isBlank c then ⟨c :: rest.takeWhile isBlank, .blank⟩
  else if startsWord c then word (c :: rest.takeWhile continuesWord)
  else if c.isDigit then
    numeral [] (c :: rest.takeWhile Char.isDigit) (rest.dropWhile Char.isDigit)
  else
    match c with
    | '-' =>
      let digits := rest.takeWhile Char.isDigit
      if digits.isEmpty then ⟨['-'], .stray⟩
      else numeral ['-'] digits (rest.dropWhile Char.isDigit)
    | '"' =>
      let (body, closed) := quotedBody rest
      ⟨'"' :: body, if closed then .token (.text (content ('"' :: body))) else .stray⟩
    | '/' => slash rest
    | '<' =>
      match rest with
      | '/' :: _ => mark .lessSlash
      | _ => mark .less
    | '>' => mark .greater
    | '\x7b' => mark .braceOpen
    | '\x7d' => mark .braceClose
    | '[' => mark .bracketOpen
    | ']' => mark .bracketClose
    | ',' => mark .comma
    | ':' => mark .colon
    | '=' => mark .equals
    | '@' => mark .atSign
    | c => ⟨[c], .stray⟩

theorem next_isPrefix (c : Char) (rest : List Char) : (next c rest).text <+: c :: rest := by
  unfold next
  split
  · simpa using List.takeWhile_prefix _
  split
  · simpa [word_text] using List.takeWhile_prefix _
  split
  · simpa using numeral_isPrefix [] (c :: rest.takeWhile Char.isDigit) (rest.dropWhile Char.isDigit)
  split
  · dsimp only
    split
    · simp
    · simpa using numeral_isPrefix ['-'] (rest.takeWhile Char.isDigit) (rest.dropWhile Char.isDigit)
  · simpa using quotedBody_isPrefix rest
  · exact slash_isPrefix rest
  · split <;> simp [mark, Mark.spelling]
  all_goals simp [mark, Mark.spelling]

theorem next_text_ne_nil (c : Char) (rest : List Char) : (next c rest).text ≠ [] := by
  unfold next
  split
  · simp
  split
  · simp [word_text]
  split
  · exact numeral_text_ne_nil _ (by simp)
  split
  · dsimp only
    split
    · simp
    case isFalse h => exact numeral_text_ne_nil _ (by simpa using h)
  · simp
  · exact slash_text_ne_nil rest
  · split <;> simp [mark, Mark.spelling]
  all_goals simp [mark, Mark.spelling]

/-- The lexemes of a text. Each takes at least one character. -/
def split : List Char → List Lexeme
  | [] => []
  | c :: rest =>
    let lexeme := next c rest
    lexeme :: split (rest.drop (lexeme.text.length - 1))
termination_by text => text.length

theorem text_next_append_drop (c : Char) (rest : List Char) :
    (next c rest).text ++ rest.drop ((next c rest).text.length - 1) = c :: rest := by
  obtain ⟨after, hAfter⟩ := next_isPrefix c rest
  obtain ⟨d, body, hText⟩ := List.exists_cons_of_ne_nil (next_text_ne_nil c rest)
  rw [hText] at hAfter ⊢
  cases hAfter
  simp

/-- Cutting a text into lexemes loses none of it. -/
theorem flatMap_text_split (text : List Char) : (split text).flatMap Lexeme.text = text := by
  fun_induction split text with
  | case1 => rfl
  | case2 c rest lexeme ih =>
    rw [List.flatMap_cons, ih]
    exact text_next_append_drop c rest

/-- What holds of each lexeme that a character can begin holds of the lexemes of a text. -/
theorem of_mem_split {P : Lexeme → Prop} (h : ∀ c rest, P (next c rest)) {text : List Char} {l : Lexeme}
    (hl : l ∈ split text) : P l := by
  fun_induction split text with
  | case1 => cases hl
  | case2 c rest lexeme ih =>
    rcases List.mem_cons.mp hl with rfl | hl
    · exact h c rest
    · exact ih hl

/-- The bytes of a text in UTF-8. -/
def byteCount : List Char → Nat
  | [] => 0
  | c :: rest => c.utf8Size + byteCount rest

/-- The tokens among lexemes that begin at an offset. -/
def tokensFrom : Nat → List Lexeme → List (Located Token)
  | _, [] => []
  | offset, ⟨text, meaning⟩ :: rest =>
    let stop := offset + byteCount text
    match meaning with
    | .token t => ⟨t, ⟨offset, stop⟩⟩ :: tokensFrom stop rest
    | _ => tokensFrom stop rest

end Lexeme

/-- The tokens of a source, with the bytes they stand on. -/
def Token.scan (source : String) : List (Located Token) :=
  Lexeme.tokensFrom 0 (Lexeme.split source.toList)

end TypedMarkup
