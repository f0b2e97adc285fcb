import TypedMarkup.Document.Grammar
import TypedMarkup.Token.Scan

/-! # From source text to documents

A source is a document if its tokens can be read as one and every closing tag repeats the name of its
opening tag. Otherwise there is one error at the furthest token reached, or one for each such tag.
-/
namespace TypedMarkup
set_option autoImplicit false

inductive SyntaxError where
  /-- A token, or the end of the source, where another token had to stand. -/
  | unexpected (found : Option Token) (expected : List Expectation) (span : Span)
  | mismatchedClose (opening closing : Identifier)
deriving DecidableEq

namespace SyntaxError

def span : SyntaxError → Span
  | unexpected _ _ s => s
  | mismatchedClose _ closing => closing.span

def message : SyntaxError → String
  | unexpected (some t) _ _ => "Unexpected " ++ t.describe
  | unexpected none _ _ => "Unexpected end of input"
  | mismatchedClose opening closing =>
    "Closing tag '</" ++ closing.value ++ ">' does not match opening tag '<" ++ opening.value ++ ">'"

/-- What could have stood there instead, in words. -/
def expected : SyntaxError → List String
  | unexpected _ es _ => es.map Expectation.describe
  | mismatchedClose opening _ => [(Token.identifier opening.value).describe]

/-- The message with its place. -/
def display (e : SyntaxError) : String :=
  "Parse error at " ++ toString e.span.start ++ ".." ++ toString e.span.stop ++ ": " ++ e.message

/-- The error that refused tokens amount to, in a source of so many bytes. At the end of the source it
reaches from there back to the last token. -/
def ofMisses (tokens : List (Located Token)) (bytes : Nat) (misses : List Miss) : SyntaxError :=
  match tokens.drop (Miss.furthest misses) with
  | t :: _ => unexpected (some t.value) (Miss.expected misses) t.span
  | [] =>
    let last := (tokens.getLast?.map fun t => t.span.stop).getD bytes
    unexpected none (Miss.expected misses) ⟨bytes, last⟩

end SyntaxError

namespace Document

def mismatches (d : Document) : List (Identifier × Identifier) := d.markup.flatMap Node.mismatches

/-- The document that tokens write, before closing tags are compared. -/
def ofTokens (tokens : List (Located Token)) (bytes : Nat) : Except SyntaxError Document :=
  let reply := Grammar.document (.ofTokens tokens)
  match reply.result with
  | some (d, _) => .ok d
  | none => .error (.ofMisses tokens bytes reply.misses)

/-- The document that a source writes, or what is wrong with it. -/
def parse (source : String) : Except (List SyntaxError) Document :=
  match ofTokens (Token.scan source) source.utf8ByteSize with
  | .error e => .error [e]
  | .ok d =>
    match d.mismatches with
    | [] => .ok d
    | pairs => .error (pairs.map fun (opening, closing) => .mismatchedClose opening closing)

end Document

/-- The type that a whole text writes. -/
def TypeExpr.parse? (source : String) : Option TypeExpr :=
  let whole : Reader TypeExpr := do
    let t ← Grammar.typeExpr
    Reader.endOfSource
    return t
  (whole (.ofTokens (Token.scan source))).result.map Prod.fst

end TypedMarkup
