import TypedMarkup.Number.Layout
import TypedMarkup.Span

/-! # Tokens

The words, marks and literals that a source is made of, and how messages name them.
-/
namespace TypedMarkup
set_option autoImplicit false

inductive Keyword where
  | component
  | param
  | binding
  | yes
  | no
deriving DecidableEq

inductive Mark where
  | less
  | greater
  | lessSlash
  | slashGreater
  | braceOpen
  | braceClose
  | bracketOpen
  | bracketClose
  | comma
  | colon
  | equals
  | atSign
deriving DecidableEq

inductive Token where
  | keyword (k : Keyword)
  | mark (m : Mark)
  | identifier (name : String)
  | text (content : String)
  | float (x : Binary64)
  | integer (n : Int64)
deriving DecidableEq

namespace Keyword

def spelling : Keyword → String
  | component => "component"
  | param => "param"
  | binding => "let"
  | yes => "true"
  | no => "false"

def all : List Keyword := [component, param, binding, yes, no]

/-- The keyword that a word spells. -/
def ofWord? (word : String) : Option Keyword := all.find? fun k => k.spelling == word

theorem ofWord?_spelling (k : Keyword) : ofWord? k.spelling = some k := by cases k <;> decide

theorem ofWord?_eq_some_iff {word : String} {k : Keyword} : ofWord? word = some k ↔ word = k.spelling := by
  constructor
  · intro h
    exact (by simpa using List.find?_some h : k.spelling = word).symm
  · rintro rfl
    exact ofWord?_spelling k

/-- The truth values are named by their spelling alone. -/
def describe (k : Keyword) : String :=
  match k with
  | yes | no => "'" ++ k.spelling ++ "'"
  | _ => "keyword '" ++ k.spelling ++ "'"

end Keyword

namespace Mark

def spelling : Mark → String
  | less => "<"
  | greater => ">"
  | lessSlash => "</"
  | slashGreater => "/>"
  | braceOpen => "\x7b"
  | braceClose => "\x7d"
  | bracketOpen => "["
  | bracketClose => "]"
  | comma => ","
  | colon => ":"
  | equals => "="
  | atSign => "@"

def describe (m : Mark) : String := "'" ++ m.spelling ++ "'"

end Mark

namespace Token

/-- A token as messages name it. -/
def describe : Token → String
  | keyword k => k.describe
  | mark m => m.describe
  | identifier name => "identifier '" ++ name ++ "'"
  | text content => "string \"" ++ content ++ "\""
  | float x => "number " ++ NumberLayout.plain.write x
  | integer n => "number " ++ toString n.toInt

end Token
end TypedMarkup
