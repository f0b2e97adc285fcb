/-! # Lines of a source

A source is cut behind each line terminator. Places in it are counted in characters.
-/
namespace TypedMarkup
set_option autoImplicit false

/-- A line with its terminator, and the number of characters before it. -/
structure SourceLine where
  offset : Nat
  text : List Char
deriving DecidableEq

namespace SourceLine

def stop (l : SourceLine) : Nat := l.offset + l.text.length

/-- Carriage return, line feed, vertical tab, form feed, next line, line and paragraph separator. -/
def isTerminator (c : Char) : Bool :=
  c = '\r' || c = '\n' || c = '\x0b' || c = '\x0c' || c = '\u0085' || c = '\u2028' || c = '\u2029'

/-- Cuts a text into lines. A carriage return and a line feed end one line together. -/
def pieces : List Char → List (List Char)
  | [] => []
  | '\r' :: '\n' :: rest => ['\r', '\n'] :: pieces rest
  | c :: rest =>
    if isTerminator c then [c] :: pieces rest
    else
      match pieces rest with
      | [] => [[c]]
      | line :: lines => (c :: line) :: lines

theorem flatten_pieces (text : List Char) : (pieces text).flatten = text := by
  fun_induction pieces text <;> simp_all

def locate : Nat → List (List Char) → List SourceLine
  | _, [] => []
  | offset, text :: rest => ⟨offset, text⟩ :: locate (offset + text.length) rest

/-- The lines of a text. An empty text has none. -/
def ofText (text : List Char) : List SourceLine := locate 0 (pieces text)

/-- The index and the line at a place. The place behind the last character is still on the last line,
and there is none beyond. -/
def at? (lines : List SourceLine) (place : Nat) : Option (Nat × SourceLine) :=
  match lines.getLast? with
  | none => none
  | some last =>
    if place ≤ last.stop then
      (lines.zipIdx.filter fun (l, _) => l.offset ≤ place).getLast?.map fun (l, i) => (i, l)
    else none

end SourceLine
end TypedMarkup
