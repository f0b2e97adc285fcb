import TypedMarkup.Number.Numeral
import TypedMarkup.Toml.Node

/-! # The words of TOML

Keys, strings, numbers and dates, each read from the front of a text.
-/
namespace TypedMarkup.Toml
set_option autoImplicit false

/-- Takes something from the front of a text, or fails. -/
abbrev Scan : Type → Type := StateT (List Char) Option

namespace Scan

variable {α : Type}

def one (p : Char → Bool) : Scan Char := fun
  | c :: rest => if p c then some (c, rest) else none
  | [] => none

def char (c : Char) : Scan Unit := do
  let _ ← one (· = c)

def chars (text : String) : Scan Unit := text.toList.forM char

def run (p : Char → Bool) : Scan (List Char) := fun text => some (text.takeWhile p, text.dropWhile p)

def run1 (p : Char → Bool) : Scan (List Char) := do
  let first ← one p
  return first :: (← run p)

def atEnd : Scan Unit := fun
  | [] => some ((), [])
  | _ => none

/-- As many in a row as there are, each of which takes at least one character. -/
def many (p : Scan α) : Scan (List α) := fun text => go (text.length + 1) text
where
  go : Nat → Scan (List α)
    | 0 => fun text => some ([], text)
    | n + 1 =>
      (do
        let a ← p
        return a :: (← go n)) <|> pure []

def separated (mark : Scan Unit) (p : Scan α) : Scan (List α) := do
  let first ← p
  let others ← many (do
    mark
    p)
  return first :: others

end Scan

open Scan

def isSpace (c : Char) : Bool := c = ' ' || c = '\t'

def space : Scan Unit := do
  let _ ← run isSpace

def newline : Scan Unit := char '\n' <|> chars "\r\n"

/-- Characters that may stand in comments and strings: no controls but the tab. -/
def isText (c : Char) : Bool := c = '\t' || 0x20 ≤ c.toNat && c.toNat ≠ 0x7F

def comment : Scan Unit := do
  char '#'
  let _ ← run isText

/-- Spaces, line ends and comments. -/
def gap : Scan Unit := do
  let _ ← many ((do let _ ← run1 isSpace) <|> newline <|> comment)

/-- The character of a number of hexadecimal digits, if it is one. -/
def codePoint (digits : Nat) : Scan Char := do
  let text ← (List.replicate digits ()).mapM fun _ => one fun c => c.isDigit || ('a' ≤ c.toLower && c.toLower ≤ 'f')
  let value := text.foldl (fun n c => 16 * n + if c.isDigit then c.toNat - 48 else c.toLower.toNat - 87) 0
  if value.isValidChar then return Char.ofNat value else failure

/-- What a backslash and the text behind it stand for. -/
def escaped : Scan Char := do
  char '\\'
  match ← one fun _ => true with
  | 'b' => return '\x08'
  | 't' => return '\t'
  | 'n' => return '\n'
  | 'f' => return '\x0c'
  | 'r' => return '\r'
  | '"' => return '"'
  | '\\' => return '\\'
  | 'u' => codePoint 4
  | 'U' => codePoint 8
  | _ => failure

def basicString : Scan String := do
  char '"'
  let text ← many (one (fun c => isText c && c ≠ '"' && c ≠ '\\') <|> escaped)
  char '"'
  return String.ofList text

def literalString : Scan String := do
  char '\''
  let text ← run fun c => isText c && c ≠ '\''
  char '\''
  return String.ofList text

/-- A backslash at the end of a line: it and all white space behind it are left out. -/
def joinedLines : Scan (List Char) := do
  char '\\'
  space
  newline
  let _ ← many ((do let _ ← run1 isSpace) <|> newline)
  return []

/-- One or two quotes that do not close a string of several lines. -/
def innerQuotes (quote : Char) : Scan (List Char) := fun text =>
  let quotes := text.takeWhile (· = quote)
  if quotes.isEmpty || 3 ≤ quotes.length then none else some (quotes, text.drop quotes.length)

/-- The closing quotes of a string of several lines, with up to two more that belong to the string. -/
def closingQuotes (quote : Char) : Scan (List Char) := fun text =>
  let count := (text.takeWhile (· = quote)).length
  if count < 3 then none else some (List.replicate (min count 5 - 3) quote, text.drop (min count 5))

/-- A string of several lines, whose pieces are read as given. A line end right behind the opening
quotes is left out. -/
def longString (quote : Char) (piece : Scan (List Char)) : Scan String := do
  chars (String.ofList [quote, quote, quote])
  let _ ← optional newline
  let pieces ← many (piece <|> (do newline; return ['\n']) <|> innerQuotes quote)
  let quotes ← closingQuotes quote
  return String.ofList (pieces.flatten ++ quotes)

def longBasicString : Scan String :=
  longString '"' (run1 (fun c => isText c && c ≠ '"' && c ≠ '\\') <|> joinedLines <|>
    do return [← escaped])

def longLiteralString : Scan String := longString '\'' (run1 fun c => isText c && c ≠ '\'')

def string : Scan String := longBasicString <|> basicString <|> longLiteralString <|> literalString

/-- A key without dots. -/
def simpleKey : Scan String :=
  basicString <|> literalString <|> do
    return String.ofList (← run1 fun c => c.isAlphanum || c = '_' || c = '-')

/-- The parts of a dotted key; a document that nests deeper than the limit is refused. -/
def key : Scan (List String × String) := do
  let parts ← separated (char '.') (do
    space
    let k ← simpleKey
    space
    return k)
  match parts.getLast? with
  | some last => if parts.length < 80 then return (parts.dropLast, last) else failure
  | none => failure

/-- Digits of a class, with single underscores between them, which are left out. -/
def digitRun (p : Char → Bool) : Scan (List Char) := do
  let first ← one p
  let others ← many (one p <|> do char '_'; one p)
  return first :: others

def sign : Scan (List Char) := do
  match ← optional (one fun c => c = '+' || c = '-') with
  | some c => return [c]
  | none => return []

/-- A decimal integer with its sign and without zeros in front. -/
def decimalInteger : Scan (List Char) := do
  let s ← sign
  let digits ← (do char '0'; return ['0']) <|> digitRun Char.isDigit
  return s ++ digits

/-- The integer of digits in a base. -/
def ofBase (base : Nat) (digits : List Char) : Int :=
  digits.foldl (fun n c => base * n + if c.isDigit then c.toNat - 48 else c.toLower.toNat - 87) 0

def isHexDigit (c : Char) : Bool := c.isDigit || ('a' ≤ c.toLower && c.toLower ≤ 'f')

def integer : Scan Int := do
  let n ← (do chars "0x"; return ofBase 16 (← digitRun isHexDigit)) <|>
    (do chars "0o"; return ofBase 8 (← digitRun fun c => '0' ≤ c && c ≤ '7')) <|>
    (do chars "0b"; return ofBase 2 (← digitRun fun c => c = '0' || c = '1')) <|>
    (do
      match Numeral.integer? (← decimalInteger) with
      | some n => return n
      | none => failure)
  if Int64.minValue.toInt ≤ n ∧ n ≤ Int64.maxValue.toInt then return n else failure

def exponent : Scan (List Char) := do
  let e ← one fun c => c = 'e' || c = 'E'
  let s ← sign
  return e :: s ++ (← digitRun Char.isDigit)

/-- A number with a fraction or an exponent. Above the greatest number there is none. -/
def number : Scan Binary64 := do
  let whole ← decimalInteger
  let rest ← exponent <|> (do
    char '.'
    let places ← digitRun Char.isDigit
    return '.' :: places ++ (← optional exponent).getD [])
  match Numeral.binary64? (whole ++ rest) with
  | some (.infinite false) => failure
  | some x => return x
  | none => failure

def specialNumber : Scan Binary64 := do
  let s ← sign
  let word ← (do chars "inf"; return "inf".toList) <|> (do chars "nan"; return "nan".toList)
  match Numeral.binary64? (s ++ word) with
  | some x => return x
  | none => failure

/-- A number of so many digits, from `least` to `most`. -/
def field (digits least most : Nat) : Scan Unit := do
  let text ← (List.replicate digits ()).mapM fun _ => one Char.isDigit
  let n := Numeral.value text
  if least ≤ n ∧ n ≤ most then return () else failure

def daysOfMonth (year month : Nat) : Nat :=
  if month = 2 then (if year % 4 = 0 ∧ (year % 100 ≠ 0 ∨ year % 400 = 0) then 29 else 28)
  else if month = 4 ∨ month = 6 ∨ month = 9 ∨ month = 11 then 30
  else 31

def date : Scan Unit := do
  let year := Numeral.value (← (List.replicate 4 ()).mapM fun _ => one Char.isDigit)
  char '-'
  let month := Numeral.value (← (List.replicate 2 ()).mapM fun _ => one Char.isDigit)
  if month = 0 ∨ 12 < month then failure
  char '-'
  field 2 1 (daysOfMonth year month)

/-- A time of day; a minute may have a leap second. -/
def time : Scan Unit := do
  field 2 0 23
  char ':'
  field 2 0 59
  char ':'
  field 2 0 60
  let _ ← optional (do
    char '.'
    run1 Char.isDigit)

def timeOffset : Scan Unit :=
  (do let _ ← one fun c => c = 'Z' || c = 'z') <|> do
    let _ ← one fun c => c = '+' || c = '-'
    field 2 0 23
    char ':'
    field 2 0 59

def moment : Scan Unit :=
  (do
    date
    let _ ← optional (do
      let _ ← one fun c => c = 'T' || c = 't' || c = ' '
      time
      optional timeOffset)) <|> time

end TypedMarkup.Toml
