import TypedMarkup.Number.Binary64

/-! # The fewest decimal digits that identify a number

The reals that round to a finite number form an interval around it. Among the decimals in that
interval with the fewest digits, the nearest one is taken, and the upper one of two equally near.
-/
namespace TypedMarkup
set_option autoImplicit false

/-- The number `digits * 10 ^ exponent`. -/
structure Decimal where
  digits : Nat
  exponent : Int
deriving DecidableEq

namespace Decimal

/-- The same decimal without zeros at the end of its digits, for at most `fuel` zeros. -/
def trim : Nat → Decimal → Decimal
  | 0, d => d
  | fuel + 1, d =>
    if d.digits ≠ 0 ∧ d.digits % 10 = 0 then trim fuel ⟨d.digits / 10, d.exponent + 1⟩ else d

end Decimal

/-- The reals from `low / unit` to `high / unit` that read back as `value / unit`. -/
structure ReadingInterval where
  low : Nat
  value : Nat
  high : Nat
  unit : Nat
  endsIncluded : Bool

namespace ReadingInterval

/-- The interval of `mantissa * 2 ^ scale / 2 ^ 1074`. The gap below the least mantissa of full
length is half as wide as the gap above. -/
def ofFinite (mantissa scale : Nat) : ReadingInterval where
  low := (4 * mantissa - if mantissa = Nat.pow 2 52 then 1 else 2) * Nat.pow 2 scale
  value := 4 * mantissa * Nat.pow 2 scale
  high := (4 * mantissa + 2) * Nat.pow 2 scale
  unit := Nat.pow 2 1076
  endsIncluded := mantissa % 2 = 0

/-- The interval measured in units of `10 ^ e`. -/
def scaleBy (i : ReadingInterval) (e : Int) : ReadingInterval :=
  let up := Nat.pow 10 (-e).toNat
  { i with
    low := i.low * up, value := i.value * up, high := i.high * up, unit := i.unit * Nat.pow 10 e.toNat }

def contains (i : ReadingInterval) (n : Nat) : Bool :=
  if i.endsIncluded then i.low ≤ n * i.unit && n * i.unit ≤ i.high
  else i.low < n * i.unit && n * i.unit < i.high

/-- The multiple of the unit that reads back: of two neighbours the nearer, at a tie the upper. -/
def nearest? (i : ReadingInterval) : Option Nat :=
  let below := i.value / i.unit
  match i.contains below, i.contains (below + 1) with
  | true, true => some (if 2 * i.value < (2 * below + 1) * i.unit then below else below + 1)
  | true, false => some below
  | false, true => some (below + 1)
  | false, false => none

/-- The least power of ten above the value, as its exponent. -/
def magnitude (i : ReadingInterval) : Int :=
  if i.unit ≤ i.value then (Nat.repr (i.value / i.unit)).length
  else
    match (List.range 400).find? fun j => i.unit ≤ i.value * Nat.pow 10 j with
    | some j => 1 - (j : Int)
    | none => -400

/-- The first of the grids with 1, 2, … 17 digits on which a neighbour reads back. -/
def shortest (i : ReadingInterval) : Decimal :=
  let top := i.magnitude
  let grids := (List.range 17).map fun n => top - (n + 1 : Nat)
  match grids.findSome? fun e => ((i.scaleBy e).nearest?).map fun n => Decimal.mk n e with
  | some d => d.trim 20
  | none => ⟨i.value * Nat.pow 5 1076, -1076⟩

end ReadingInterval

/-- The decimal written for a finite number that is not zero. -/
def Binary64.shortest (mantissa scale : Nat) : Decimal :=
  (ReadingInterval.ofFinite mantissa scale).shortest

end TypedMarkup
