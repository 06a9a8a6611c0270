/-!
# Bits of unbounded integers

Flag words and tokens are unbounded integers; a negative one has infinitely
many leading ones.  The masks used in metadata are single bits or runs of low
bits, so both come down to the remainder by a power of two.
-/

namespace CilAtlas
namespace Bits

/-- The number formed by the lowest `width` bits. -/
def low (width : Nat) (n : Int) : Nat :=
  (n % (Nat.pow 2 width : Nat)).toNat

/-- Whether the bit with the given position is set. -/
def test (position : Nat) (n : Int) : Bool :=
  low (position + 1) n ≥ Nat.pow 2 position

/-- Bitwise disjunction of integers in two's complement. -/
def or : Int → Int → Int
  | .ofNat a, .ofNat b => .ofNat (a ||| b)
  | .ofNat a, .negSucc b => .negSucc (b - (a &&& b))
  | .negSucc a, .ofNat b => .negSucc (a - (a &&& b))
  | .negSucc a, .negSucc b => .negSucc (a &&& b)

end Bits
end CilAtlas
