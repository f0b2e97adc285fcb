import TypedMarkup.Listing.Basic
import TypedMarkup.Toml.Grammar

/-! # Settings

Options of the compiler, read from a TOML document. Every section and key may be missing, and unknown
ones are ignored. A section may also be an array of its values in the order of its keys.
-/
namespace TypedMarkup
set_option autoImplicit false

structure Settings where
  listing : ListingStyle
  /-- Whether reports are coloured. -/
  color : Bool
deriving DecidableEq

namespace Settings

def standard : Settings := ⟨.standard, true⟩

def indent? : Toml.Node → Option Nat
  | .scalar (.integer n) => if 0 ≤ n then some n.toNat else none
  | _ => none

def builder? : Toml.Node → Option String
  | .scalar (.text s) => some s
  | _ => none

def color? : Toml.Node → Option Bool
  | .scalar (.boolean b) => some b
  | _ => none

/-- The value found for an option, the standard if there is none; an unfit value is refused. -/
def option {α : Type} (found : Option Toml.Node) (read : Toml.Node → Option α) (standard : α) : Option α :=
  match found with
  | none => some standard
  | some node => read node

/-- The values that a section has for its keys. A date has none of them. -/
def section? (keys : List String) : Option Toml.Node → Option (List (Option Toml.Node))
  | none => some (keys.map fun _ => none)
  | some (.table _ entries) => some (keys.map fun k => entries.lookup k)
  | some (.array items) => some (keys.mapIdx fun i _ => items[i]?)
  | some (.tables elements) => some (keys.mapIdx fun i _ => elements[i]?.map (Toml.Node.table .header))
  | some (.scalar .moment) => some (keys.map fun _ => none)
  | some (.scalar _) => none

def listing? (node : Option Toml.Node) : Option ListingStyle :=
  match section? ["indent", "builder"] node with
  | some [indent, builder] =>
    match option indent indent? ListingStyle.standard.indent,
      option builder builder? ListingStyle.standard.builder with
    | some indent, some builder => some ⟨indent, builder⟩
    | _, _ => none
  | _ => none

def colored? (node : Option Toml.Node) : Option Bool :=
  match section? ["color"] node with
  | some [color] => option color color? standard.color
  | _ => none

def ofEntries? (entries : Toml.Entries) : Option Settings :=
  match listing? (entries.lookup "codegen"), colored? (entries.lookup "diagnostics") with
  | some listing, some color => some ⟨listing, color⟩
  | _, _ => none

/-- The settings that a document writes. -/
def parse? (source : String) : Option Settings := (Toml.parse? source).bind ofEntries?

end Settings
end TypedMarkup
