import TypedMarkup.Document.Basic
import TypedMarkup.Text.Blank

/-! # Listings

A listing is a row of calls on a render-tree builder, one to a line. Calls that add to the tree carry
a sequence number; calls between the two ends of a child content block stand one level deeper.
-/
namespace TypedMarkup
set_option autoImplicit false

structure ListingStyle where
  /-- Spaces for each level. -/
  indent : Nat
  /-- The name of the builder variable. -/
  builder : String
deriving DecidableEq

def ListingStyle.standard : ListingStyle where
  indent := 4
  builder := "builder"

inductive Call where
  | openElement (name : String)
  | closeElement
  | openComponent (type : String)
  | closeComponent
  | addAttribute (name : String) (value : AttributeValue)
  | addContent (code : String)
  | beginContent
  | endContent
deriving DecidableEq

namespace Call

def isNumbered : Call → Bool
  | closeElement | closeComponent | endContent => false
  | _ => true

/-- The level of the call's own line inside so many blocks. An end without a beginning stays at the
outermost level. -/
def depth (blocks : Nat) : Call → Nat
  | endContent => blocks - 1
  | _ => blocks

/-- The blocks that are open after the call. -/
def depthAfter (blocks : Nat) : Call → Nat
  | beginContent => blocks + 1
  | endContent => blocks - 1
  | _ => blocks

def sequenceAfter (sequence : Nat) (c : Call) : Nat := if c.isNumbered then sequence + 1 else sequence

theorem sequenceAfter_add_countP (c : Call) (rest : List Call) (sequence : Nat) :
    c.sequenceAfter sequence + rest.countP isNumbered = sequence + (c :: rest).countP isNumbered := by
  rw [sequenceAfter, List.countP_cons]
  split <;> omega

/-- The call as code. -/
def code (builder : String) (sequence : Nat) : Call → String
  | openElement name =>
    builder ++ ".open_element(" ++ toString sequence ++ ", " ++ Text.quoted name ++ ");"
  | closeElement => builder ++ ".close_element();"
  | openComponent type => builder ++ ".open_component::<" ++ type ++ ">(" ++ toString sequence ++ ");"
  | closeComponent => builder ++ ".close_component();"
  | addAttribute name value =>
    builder ++ ".add_attribute(" ++ toString sequence ++ ", " ++ Text.quoted name ++ ", " ++ value.code ++ ");"
  | addContent code => builder ++ ".add_content(" ++ toString sequence ++ ", " ++ code ++ ");"
  | beginContent =>
    builder ++ ".add_child_content(" ++ toString sequence ++ ", |" ++ builder ++ "| \x7b"
  | endContent => "\x7d);"

end Call

namespace ListingStyle

/-- The lines of calls that follow so many open blocks and so many numbered calls. -/
def linesFrom (style : ListingStyle) : Nat → Nat → List Call → List String
  | _, _, [] => []
  | depth, sequence, c :: rest =>
    (Text.spaces (c.depth depth * style.indent) ++ c.code style.builder sequence) ::
      linesFrom style (c.depthAfter depth) (c.sequenceAfter sequence) rest

def lines (style : ListingStyle) (calls : List Call) : List String := style.linesFrom 0 0 calls

theorem linesFrom_append (style : ListingStyle) (calls rest : List Call) (depth sequence : Nat) :
    style.linesFrom depth sequence (calls ++ rest) = style.linesFrom depth sequence calls ++
      style.linesFrom (calls.foldl Call.depthAfter depth) (sequence + calls.countP Call.isNumbered) rest := by
  induction calls generalizing depth sequence with
  | nil => rfl
  | cons c calls ih =>
    rw [List.cons_append, linesFrom, ih, Call.sequenceAfter_add_countP]
    rfl

/-- The listing as text, with an end to every line. -/
def write (style : ListingStyle) (calls : List Call) : String :=
  String.join ((style.lines calls).map fun line => line ++ "\n")

end ListingStyle
end TypedMarkup
