/-! # Binary floating-point numbers of 64 bits

A finite number is a mantissa below `2 ^ 53` times a power of two, counted from the finest power
that occurs. Decimal text is read exactly and then rounded once, to nearest, a half to even.
-/
namespace TypedMarkup
set_option autoImplicit false

inductive Binary64 where
  | nan
  | infinite (negative : Bool)
  /-- The number `mantissa * 2 ^ scale / 2 ^ 1074`, with its sign. -/
  | finite (negative : Bool) (mantissa scale : Nat)
deriving DecidableEq

namespace Binary64

/-- The quotient rounded to the nearest natural number, a half to the even one. -/
def roundQuotient (num den : Nat) : Nat :=
  let q := num / den
  match compare (2 * (num % den)) den with
  | .lt => q
  | .gt => q + 1
  | .eq => q + q % 2

/-- The number of binary places by which a natural number exceeds 53. -/
def excessBits (n : Nat) : Nat :=
  if n < Nat.pow 2 53 then 0 else n.log2 - 52

/-- The number nearest to `num / den`, with the given sign. -/
def ofQuotient (negative : Bool) (num den : Nat) : Binary64 :=
  let fine := num * Nat.pow 2 1074
  let scale := excessBits (fine / den)
  let mantissa := roundQuotient fine (den * Nat.pow 2 scale)
  let (mantissa, scale) := if mantissa = Nat.pow 2 53 then (Nat.pow 2 52, scale + 1) else (mantissa, scale)
  if scale > 2045 then infinite negative else finite negative mantissa scale

/-- The number nearest to `digits * 10 ^ exponent`. Beyond 400 decimal places either way the answer
is known without computing the power. -/
def ofDecimal (negative : Bool) (digits : Nat) (exponent : Int) : Binary64 :=
  let places := exponent + (Nat.repr digits).length
  if digits = 0 then finite negative 0 0
  else if places > 400 then infinite negative
  else if places < -400 then finite negative 0 0
  else if exponent < 0 then ofQuotient negative digits (Nat.pow 10 exponent.natAbs)
  else ofQuotient negative (digits * Nat.pow 10 exponent.toNat) 1

end Binary64
end TypedMarkup
