/-! # Spans

Ranges of byte offsets into the UTF-8 form of a source, and values that carry one.
-/
namespace TypedMarkup
set_option autoImplicit false

/-- The bytes from `start` up to, and not including, `stop`. -/
structure Span where
  start : Nat
  stop : Nat
deriving DecidableEq

/-- A value together with the source bytes it was read from. -/
structure Located (α : Type) where
  value : α
  span : Span
deriving DecidableEq

end TypedMarkup
