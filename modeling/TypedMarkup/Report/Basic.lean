import TypedMarkup.Report.SourceLine
import TypedMarkup.Span
import TypedMarkup.Text.Columns

/-! # Reports

A report shows a message with the source lines that it is about. The bytes of its label are taken as
places counted in characters: they mark the text meant as long as only ASCII comes before it.
-/
namespace TypedMarkup
set_option autoImplicit false

/-- A message about one place of a file, with a shorter message written at the place. -/
structure Report where
  code : Option String
  message : String
  span : Span
  label : String
deriving DecidableEq

namespace Report

inductive Ink where
  | mark
  | margin
  | faintMargin
  | plainText

/-- The terminal's code for a colour. -/
def Ink.code : Ink → String
  | mark => "31"
  | margin => "38;5;246"
  | faintMargin => "38;5;240"
  | plainText => "38;5;249"

/-- How reports are drawn: with or without colours, and with room for line numbers of a width. -/
structure Canvas where
  color : Bool
  width : Nat

namespace Canvas

open Text (spaces)

def paint (v : Canvas) (ink : Ink) (text : String) : String :=
  if v.color then "\x1b[" ++ ink.code ++ "m" ++ text ++ "\x1b[0m" else text

/-- The same text a number of times, each time painted anew. -/
def repeated (v : Canvas) (ink : Ink) (n : Nat) (text : String) : String :=
  String.join (List.replicate n (v.paint ink text))

/-- The margin of a line of the source, with its number. -/
def numbered (v : Canvas) (number : Nat) : String :=
  let digits := toString number
  " " ++ v.paint .margin (spaces (v.width - digits.length) ++ digits ++ " │") ++ " "

/-- The margin of a line between lines of the source. -/
def unnumbered (v : Canvas) (bar : String) : String :=
  " " ++ v.paint .faintMargin (spaces (v.width + 1) ++ bar) ++ " "

/-- What is shown of a line: all but the white space at its end. -/
def shown (line : SourceLine) : List Char :=
  (line.text.reverse.dropWhile Text.isBlank).reverse

/-- The columns of the character at an index of a line; one where there is none. -/
def columnsAt (line : SourceLine) (index : Nat) : Nat :=
  match (shown line)[index]? with
  | some c => (Text.drawn c index).2
  | none => 1

/-- A character of the source in the colour of its part. White space fills its columns. -/
def character (v : Canvas) (ink : Ink) (c : Char) (index : Nat) : String :=
  let (d, n) := Text.drawn c index
  if Text.isBlank d then v.repeated ink n (String.singleton d) else v.paint ink (String.singleton d)

/-- The text of a line, with the part under the label marked. -/
def source (v : Canvas) (span : Span) (line : SourceLine) : String :=
  String.join <| (shown line).mapIdx fun index c =>
    let place := line.offset + index
    v.character (if span.start ≤ place ∧ place < span.stop then .mark else .plainText) c index

/-- The columns of a line from the first on, so many characters wide, each drawn by the function. -/
def row (line : SourceLine) (length : Nat) (draw : Nat → Nat → String) : String :=
  String.join <| (List.range length).map fun index => draw index (columnsAt line index)

/-- The line under a label on one line. A label without characters has a bar only. -/
def underline (v : Canvas) (span : Span) (line : SourceLine) (middle length : Nat) : String :=
  row line length fun index columns =>
    let place := line.offset + index
    let covered := decide (span.start ≤ place ∧ place < span.stop)
    if index = middle then
      v.repeated .mark (min columns 1) (if covered then "┬" else "│") ++
        v.repeated .mark (columns - 1) (if covered then "─" else " ")
    else if covered then v.repeated .mark columns "─"
    else spaces columns

/-- The arrow from the middle of a label to its message. -/
def arrow (v : Canvas) (line : SourceLine) (middle length : Nat) : String :=
  row line length fun index columns =>
    if index = middle then
      v.repeated .mark (min columns 1) "╰" ++ v.repeated .mark (columns - 1) "─"
    else if middle < index then v.repeated .mark columns "─"
    else spaces columns

/-- A label within one line: the line, what is under the label, and the message. -/
def inline (v : Canvas) (r : Report) (number : Nat) (line : SourceLine) : List String :=
  if r.span.start < line.offset ∨ line.stop < r.span.stop then [v.unnumbered "│"]
  else
    let middle := max ((r.span.start + r.span.stop) / 2) r.span.start - line.offset
    let length := r.span.stop - line.offset + 2
    [v.numbered number ++ v.source r.span line,
      v.unnumbered "│" ++ v.underline r.span line middle length,
      v.unnumbered "│" ++ v.arrow line middle length ++ " " ++ r.label]

/-- The line that a label of several lines begins or ends on. -/
def edge (v : Canvas) (r : Report) (corner : String) (number : Nat) (line : SourceLine) : String :=
  v.numbered number ++ String.join ([corner, "─", "▶", " "].map (v.paint .mark)) ++ v.source r.span line

/-- The rows under the last line of a label of several lines, with the message. -/
def closing (v : Canvas) (r : Report) (line : SourceLine) : List String :=
  let length := line.text.length + 2
  [v.unnumbered "│" ++ v.paint .mark "│" ++ spaces 3 ++ row line length fun _ columns => spaces columns,
    v.unnumbered "│" ++ v.paint .mark "╰" ++ v.repeated .mark 3 "─" ++
      (row line length fun _ columns => v.repeated .mark columns "─") ++ " " ++ r.label]

/-- A label of several lines. What lies between its first and last line is left out; a label that
ends behind the source has no last line. -/
def block (v : Canvas) (r : Report) (first : Nat × SourceLine) (last : Nat × SourceLine) : List String :=
  let ends := decide (r.span.stop ≤ last.2.stop)
  let omitted := last.1 - first.1 - (if ends then 1 else 0)
  [v.edge r "╭" (first.1 + 1) first.2] ++
    (if omitted = 0 then [] else [v.unnumbered "┆" ++ v.paint .mark "┆" ++ spaces 3]) ++
    if ends then v.edge r "├" (last.1 + 1) last.2 :: v.closing r last.2 else []

/-- The frame around what is shown of the file, with the place of the label. -/
def frame (v : Canvas) (file : String) (location : Nat × Nat) (body : List String) : List String :=
  [spaces (v.width + 2) ++ v.paint .margin "╭" ++ v.paint .margin "─" ++ v.paint .margin "[" ++
      file ++ ":" ++ toString location.1 ++ ":" ++ toString location.2 ++ v.paint .margin "]",
    spaces (v.width + 2) ++ v.paint .margin "│"] ++ body ++
    [v.paint .margin (String.join (List.replicate (v.width + 2) "─") ++ "╯")]

end Canvas

/-- The first and the last line of a label, each with its index. -/
def lines? (r : Report) (lines : List SourceLine) : Option ((Nat × SourceLine) × (Nat × SourceLine)) :=
  match SourceLine.at? lines r.span.start with
  | none => none
  | some first =>
    if r.span.stop ≤ r.span.start then some (first, first)
    else (SourceLine.at? lines (r.span.stop - 1)).map fun last => (first, last)

/-- The line and the column where the label begins, both counted from one. -/
def location (r : Report) (first : Nat × SourceLine) : Nat × Nat :=
  (first.1 + 1, r.span.start - first.2.offset + 1)

/-- The kind of report and its message. -/
def header (r : Report) (color : Bool) : String :=
  let code :=
    match r.code with
    | some c => "[" ++ c ++ "] "
    | none => ""
  (Canvas.mk color 0).paint .mark (code ++ "Error:") ++ " " ++ r.message

/-- The rows of a report on a file. If the label lies outside the source there is only the message. -/
def rows (r : Report) (file source : String) (color : Bool) : List String :=
  match r.lines? (SourceLine.ofText source.toList) with
  | none => [r.header color]
  | some (first, last) =>
    let canvas : Canvas := ⟨color, (toString (last.1 + 1)).length⟩
    let body := if first.1 = last.1 then canvas.inline r (first.1 + 1) first.2 else canvas.block r first last
    r.header color :: canvas.frame file (r.location first) body

/-- The text of a report. There is none for a label that starts behind its end. -/
def render? (r : Report) (file source : String) (color : Bool) : Option String :=
  if r.span.stop < r.span.start then none
  else some (String.join ((r.rows file source color).map fun row => row ++ "\n"))

end Report
end TypedMarkup
