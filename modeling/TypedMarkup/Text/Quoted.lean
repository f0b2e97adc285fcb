import TypedMarkup.Text.Extending
import TypedMarkup.Text.Ignorable
import TypedMarkup.Text.Printable

/-! # Quoted text

Text between double quotes, on one line. Quotes, backslashes and the usual controls are escaped by a
letter, other characters that do not stand for themselves by their code point.
-/
namespace TypedMarkup.Text
set_option autoImplicit false

/-- The letter behind a backslash that stands for a character. -/
def escapeLetter? : Char → Option Char
  | '"' => some '"'
  | '\\' => some '\\'
  | '\n' => some 'n'
  | '\r' => some 'r'
  | '\t' => some 't'
  | '\x00' => some '0'
  | _ => none

/-- Whether a character shows by itself. -/
def isSeen (c : Char) : Bool := isPrintable c && !isExtending c && !isIgnorable c

/-- The code point of a character, in hexadecimal digits between braces. -/
def codePoint (c : Char) : List Char :=
  '\\' :: 'u' :: '\x7b' :: (Nat.toDigits 16 c.toNat ++ ['\x7d'])

def escapeChar (c : Char) : List Char :=
  match escapeLetter? c with
  | some l => ['\\', l]
  | none => if isSeen c then [c] else codePoint c

def escape (text : List Char) : List Char := text.flatMap escapeChar

@[simp] theorem escape_cons (c : Char) (text : List Char) :
    escape (c :: text) = escapeChar c ++ escape text := rfl

def quoted (text : String) : String :=
  String.ofList ('"' :: (escape text.toList ++ ['"']))

end TypedMarkup.Text
