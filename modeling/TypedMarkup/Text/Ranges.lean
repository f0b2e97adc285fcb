/-! # Ranges of characters

A class of characters is given by closed ranges of code points, ascending and apart.
-/
namespace TypedMarkup.Text
set_option autoImplicit false

/-- Whether a code point lies in one of the ranges; the search ends at the first range above it. -/
def inRanges : List (Nat × Nat) → Nat → Bool
  | [], _ => false
  | (lo, hi) :: rest, n => if n < lo then false else if n ≤ hi then true else inRanges rest n

end TypedMarkup.Text
