import TypedMarkup.Number.Binary64

/-! # TOML documents

Tables of keys and values, and the rules on which of them a later line may add to.
-/
namespace TypedMarkup.Toml
set_option autoImplicit false

inductive Scalar where
  | text (content : String)
  | integer (n : Int)
  | float (x : Binary64)
  | boolean (b : Bool)
  /-- A date, a time, or both. -/
  | moment

/-- How a table came to be, which decides what may be added to it. -/
inductive TableKind where
  /-- Named by a header of its own, or the table of the whole document. -/
  | header
  /-- Only passed through by the path of a header. -/
  | implied
  /-- Passed through by dotted keys. -/
  | dotted
  /-- Written between braces, and complete. -/
  | inline
deriving DecidableEq

inductive Node where
  | scalar (s : Scalar)
  | array (items : List Node)
  | table (kind : TableKind) (entries : List (String × Node))
  /-- The tables of a repeated header. -/
  | tables (elements : List (List (String × Node)))

abbrev Entries : Type := List (String × Node)

namespace Entries

/-- Puts a value in the place of the one with the same key, or at the end. -/
def put (entries : Entries) (key : String) (value : Node) : Entries :=
  if (entries.lookup key).isSome then entries.map fun (k, v) => if k = key then (k, value) else (k, v)
  else entries ++ [(key, value)]

/-- Adds a key that is not there yet. -/
def add? (entries : Entries) (key : String) (value : Node) : Option Entries :=
  if (entries.lookup key).isSome then none else some (entries ++ [(key, value)])

/-- Changes the table at the end of a path, making the tables on the way. The path of a dotted key
does not enter tables that have headers, and no path enters a value. -/
def alter? (byDots : Bool) :
    List String → (TableKind → Entries → Option Entries) → TableKind → Entries → Option Entries
  | [], change, kind, entries => change kind entries
  | key :: path, change, _, entries =>
    match entries.lookup key with
    | none =>
      let made := if byDots then TableKind.dotted else TableKind.implied
      (alter? byDots path change made []).map fun inner => entries ++ [(key, .table made inner)]
    | some (.table kind inner) =>
      if kind = .inline ∨ byDots ∧ kind = .header then none
      else (alter? byDots path change kind inner).map fun inner => entries.put key (.table kind inner)
    | some (.tables elements) =>
      match elements.getLast? with
      | none => none
      | some inner =>
        (alter? byDots path change .header inner).map fun inner =>
          entries.put key (.tables (elements.dropLast ++ [inner]))
    | some _ => none

/-- Gives a key in the table at the end of a dotted path its value. -/
def assign? (path : List String) (key : String) (value : Node) : TableKind → Entries → Option Entries :=
  alter? true path fun kind entries =>
    if decide (kind = .dotted) == path.isEmpty then none else entries.add? key value

/-- Opens the table of a header. It must be new, or only passed through so far. -/
def openTable? (path : List String) (key : String) : Entries → Option Entries :=
  alter? false path (fun _ entries =>
    match entries.lookup key with
    | none => some (entries ++ [(key, .table .header [])])
    | some (.table .implied inner) => some (entries.put key (.table .header inner))
    | some _ => none) .header

/-- Opens one more table of a repeated header. -/
def openElement? (path : List String) (key : String) : Entries → Option Entries :=
  alter? false path (fun _ entries =>
    match entries.lookup key with
    | none => some (entries ++ [(key, .tables [[]])])
    | some (.tables elements) => some (entries.put key (.tables (elements ++ [[]])))
    | some _ => none) .header

end Entries

/-- A line of a document: a header, or a key with a value. A path comes before each last key. -/
inductive Statement where
  | table (path : List String) (key : String)
  | element (path : List String) (key : String)
  | assign (path : List String) (key : String) (value : Node)

/-- The document that statements write, from the table opened last on. -/
def build? : Entries → List String → List Statement → Option Entries
  | root, _, [] => some root
  | root, _, .table path key :: rest =>
    match root.openTable? path key with
    | some root' => build? root' (path ++ [key]) rest
    | none => none
  | root, _, .element path key :: rest =>
    match root.openElement? path key with
    | some root' => build? root' (path ++ [key]) rest
    | none => none
  | root, current, .assign path key value :: rest =>
    match root.alter? false current (Entries.assign? path key value) .header with
    | some root' => build? root' current rest
    | none => none

end TypedMarkup.Toml
