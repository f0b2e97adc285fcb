import TypedMarkup.Toml.Lexical

/-! # The grammar of TOML

Values, lines and whole documents.
-/
namespace TypedMarkup.Toml
set_option autoImplicit false
open Scan

def scalar : Scan Scalar :=
  (do return .text (← string)) <|>
  (do moment; return .moment) <|>
  (do return .float (← number)) <|>
  (do return .float (← specialNumber)) <|>
  (do return .integer (← integer)) <|>
  (do chars "true"; return .boolean true) <|>
  (do chars "false"; return .boolean false)

/-- A key with its value, the value read as given. -/
def keyValue (value : Scan Node) : Scan (List String × String × Node) := do
  let (path, last) ← key
  char '='
  space
  return (path, last, ← value)

/-- Values between brackets, on any number of lines, with or without a comma behind the last. -/
def array (value : Scan Node) : Scan Node := do
  let spaced : Scan Node := do
    gap
    let v ← value
    gap
    return v
  char '['
  let items ← optional (separated (char ',') spaced)
  if items.isSome then
    let _ ← optional (char ',')
  gap
  char ']'
  return .array (items.getD [])

/-- Keys with values between braces, on one line. -/
def inlineTable (value : Scan Node) : Scan Node := do
  char '\x7b'
  let pairs ← optional (separated (char ',') (do
    space
    let pair ← keyValue value
    space
    return pair))
  space
  char '\x7d'
  let entries := (pairs.getD []).foldlM (fun entries (path, key, v) => Entries.assign? path key v .inline entries) []
  match entries with
  | some entries => return .table .inline entries
  | none => failure

/-- A value in which arrays and tables nest less deeply than the number says. -/
def value : Nat → Scan Node
  | 0 => do return .scalar (← scalar)
  | depth + 1 =>
    (do return .scalar (← scalar)) <|> array (value depth) <|> inlineTable (value depth)

def statement : Scan Statement :=
  (do
    chars "[["
    let (path, last) ← key
    chars "]]"
    return .element path last) <|>
  (do
    char '['
    let (path, last) ← key
    char ']'
    return .table path last) <|>
  (do
    let (path, last, v) ← keyValue (value 79)
    return .assign path last v)

def line : Scan (Option Statement) := do
  space
  let s ← optional statement
  space
  let _ ← optional comment
  return s

def statements : Scan (List Statement) := do
  let _ ← optional (char '\ufeff')
  let lines ← separated newline line
  atEnd
  return lines.filterMap id

/-- The document that a text writes. -/
def parse? (source : String) : Option Entries :=
  match statements source.toList with
  | some (lines, _) => build? [] [] lines
  | none => none

end TypedMarkup.Toml
