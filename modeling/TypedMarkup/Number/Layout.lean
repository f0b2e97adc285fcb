import TypedMarkup.Number.Shortest

/-! # Laying out numbers

How the digits of a number are written: where the point stands, and when an exponent is used.
-/
namespace TypedMarkup
set_option autoImplicit false

structure NumberLayout where
  /-- Which exponents of the leading digit are written without an exponent. -/
  positional : Int → Bool
  /-- Whether whole numbers keep a zero after the point. -/
  pointZero : Bool

namespace NumberLayout

/-- Numbers in generated code: with an exponent below `10 ^ -4` and from `10 ^ 16` on. -/
def code : NumberLayout where
  positional e := -4 ≤ e && e < 16
  pointZero := true

/-- Numbers in messages: never an exponent, and no zero after a whole number. -/
def plain : NumberLayout where
  positional _ := true
  pointZero := false

def zeros (n : Nat) : List Char := List.replicate n '0'

/-- Digits with the point after the first `point` of them, zeros filling what is missing. -/
def fixed (layout : NumberLayout) (digits : List Char) (point : Int) : List Char :=
  if point ≤ 0 then '0' :: '.' :: (zeros (-point).toNat ++ digits)
  else if point < digits.length then digits.take point.toNat ++ '.' :: digits.drop point.toNat
  else digits ++ zeros (point.toNat - digits.length) ++ if layout.pointZero then ['.', '0'] else []

/-- One digit, the others behind a point, and the exponent of the first. -/
def scientific (digits : List Char) (exponent : Int) : List Char :=
  digits.take 1 ++ (if digits.length ≤ 1 then [] else '.' :: digits.drop 1) ++
    'e' :: (toString exponent).toList

def decimal (layout : NumberLayout) (d : Decimal) : List Char :=
  let digits := (Nat.repr d.digits).toList
  let point := d.exponent + digits.length
  if layout.positional (point - 1) then layout.fixed digits point else scientific digits (point - 1)

def magnitude (layout : NumberLayout) (mantissa scale : Nat) : List Char :=
  if mantissa = 0 then (if layout.pointZero then ['0', '.', '0'] else ['0'])
  else layout.decimal (Binary64.shortest mantissa scale)

def signed (negative : Bool) (text : List Char) : List Char :=
  if negative then '-' :: text else text

/-- The text of a number. -/
def write (layout : NumberLayout) (x : Binary64) : String :=
  String.ofList <|
    match x with
    | .nan => ['N', 'a', 'N']
    | .infinite negative => signed negative ['i', 'n', 'f']
    | .finite negative mantissa scale => signed negative (layout.magnitude mantissa scale)

end NumberLayout
end TypedMarkup
