import TypedMarkup.Token.Basic

/-! # Reading tokens

A reader takes tokens from the front of a list or fails. Either way it reports every token it had to
refuse, so that a failure can be explained by what was wanted at the furthest token reached.
-/
namespace TypedMarkup
set_option autoImplicit false

/-- What could have stood at a place. -/
inductive Expectation where
  | keyword (k : Keyword)
  | mark (m : Mark)
  | endOfSource
deriving DecidableEq

def Expectation.describe : Expectation → String
  | keyword k => k.describe
  | mark m => m.describe
  | endOfSource => "end of input"

/-- A place between tokens: how many come before, where the last of them ends, and those behind. -/
structure Cursor where
  index : Nat
  last : Nat
  rest : List (Located Token)

namespace Cursor

/-- Where the next token starts. -/
def start (c : Cursor) : Nat :=
  match c.rest with
  | [] => c.last
  | t :: _ => t.span.start

def ofTokens (tokens : List (Located Token)) : Cursor := ⟨0, 0, tokens⟩

end Cursor

/-- A token that was refused. A place for a name or a literal wants nothing in particular. -/
structure Miss where
  index : Nat
  wanted : Option Expectation
deriving DecidableEq

namespace Miss

/-- The furthest index among misses. -/
def furthest (misses : List Miss) : Nat := (misses.map Miss.index).foldl max 0

/-- What was wanted at the furthest index, each once, in the order of the attempts. -/
def expected (misses : List Miss) : List Expectation :=
  let last := furthest misses
  ((misses.filter fun m => m.index = last).filterMap Miss.wanted).eraseDups

end Miss

structure Reply (α : Type) where
  result : Option (α × Cursor)
  misses : List Miss

def Reader (α : Type) : Type := Cursor → Reply α

namespace Reader

variable {α β : Type}

def pure (a : α) : Reader α := fun c => ⟨some (a, c), []⟩

def bind (p : Reader α) (q : α → Reader β) : Reader β := fun c =>
  let first := p c
  match first.result with
  | none => ⟨none, first.misses⟩
  | some (a, c') =>
    let second := q a c'
    ⟨second.result, first.misses ++ second.misses⟩

instance : Monad Reader where
  pure := Reader.pure
  bind := Reader.bind

/-- The first reader, or else the second from the same place. -/
def orElse (p q : Reader α) : Reader α := fun c =>
  let first := p c
  match first.result with
  | some _ => first
  | none =>
    let second := q c
    ⟨second.result, first.misses ++ second.misses⟩

def maybe (p : Reader α) : Reader (Option α) :=
  orElse (do return some (← p)) (Reader.pure none)

/-- One token of a kind. -/
def satisfy (wanted : Option Expectation) (pick : Token → Option α) : Reader α := fun c =>
  match c.rest with
  | [] => ⟨none, [⟨c.index, wanted⟩]⟩
  | t :: rest =>
    match pick t.value with
    | some a => ⟨some (a, ⟨c.index + 1, t.span.stop, rest⟩), []⟩
    | none => ⟨none, [⟨c.index, wanted⟩]⟩

def keyword (k : Keyword) : Reader Unit :=
  satisfy (some (.keyword k)) fun t => if t = .keyword k then some () else none

def mark (m : Mark) : Reader Unit :=
  satisfy (some (.mark m)) fun t => if t = .mark m then some () else none

def name : Reader String :=
  satisfy none fun
    | .identifier n => some n
    | _ => none

def endOfSource : Reader Unit := fun c =>
  match c.rest with
  | [] => ⟨some ((), c), []⟩
  | _ :: _ => ⟨none, [⟨c.index, some .endOfSource⟩]⟩

/-- Completes what was read by the bytes it was read from. -/
def spanning (p : Reader (Span → α)) : Reader α := fun c =>
  let reply := p c
  ⟨reply.result.map fun (f, c') => (f ⟨c.start, c'.last⟩, c'), reply.misses⟩

def located (p : Reader α) : Reader (Located α) :=
  spanning (do
    let a ← p
    return fun span => ⟨a, span⟩)

/-- The reader that refers to itself at most so many times within itself. -/
def approximation (step : Reader α → Reader α) : Nat → Reader α
  | 0 => fun c => ⟨none, [⟨c.index, none⟩]⟩
  | n + 1 => step (approximation step n)

/-- A reader that refers to itself. It takes a token before each such reference, so that there are no
more of them, one within another, than tokens. -/
def fix (step : Reader α → Reader α) : Reader α := fun c =>
  approximation step (c.rest.length + 1) c

/-- As many in a row as there are. -/
def many (p : Reader α) : Reader (List α) :=
  fix fun more => orElse
    (do
      let a ← p
      return a :: (← more))
    (Reader.pure [])

/-- At least one, with a mark between two of them. -/
def separated (m : Mark) (p : Reader α) : Reader (List α) := do
  let first ← p
  let others ← many (do
    mark m
    p)
  return first :: others

def between (before after : Mark) (p : Reader α) : Reader α := do
  mark before
  let a ← p
  mark after
  return a

end Reader
end TypedMarkup
