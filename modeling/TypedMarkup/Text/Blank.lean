import TypedMarkup.Text.Ranges

/-! # White space

The Unicode property White_Space, with its 25 characters.
-/
namespace TypedMarkup.Text
set_option autoImplicit false

/-- Closed ranges of code points. -/
def blankRanges : List (Nat × Nat) :=
  [(0x9, 0xD), (0x20, 0x20), (0x85, 0x85), (0xA0, 0xA0), (0x1680, 0x1680), (0x2000, 0x200A),
   (0x2028, 0x2029), (0x202F, 0x202F), (0x205F, 0x205F), (0x3000, 0x3000)]

def isBlank (c : Char) : Bool := inRanges blankRanges c.toNat

def spaces (n : Nat) : String := String.ofList (List.replicate n ' ')

end TypedMarkup.Text
