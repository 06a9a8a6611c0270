import CilAtlas.Text.Numeral

/-!
# The mapped image

The bytes of an assembly as they lie in memory.  Positions are integers; a
negative one counts from the end, as a slice of the image sees it.
-/

namespace CilAtlas

/-- A range that does not lie in the image. -/
structure RangeError where
  rva : Int
  size : Int
deriving DecidableEq

/-- The wording of a range error. -/
def RangeError.message (e : RangeError) : Text :=
  lit "Range 0x" ++ Text.hexInt 0 e.rva ++ lit "+" ++ Text.ofInt e.size ++
    lit " outside of the mapped image"

/-- The bytes of an image. -/
structure Image where
  bytes : Array UInt8

namespace Image

/-- How many bytes the image has. -/
def size (image : Image) : Nat :=
  image.bytes.size

/-- The place that a slice bound means: from the end when negative, and never
outside. -/
def place (image : Image) (position : Int) : Nat :=
  if position < 0 then (position + image.size).toNat else min position.toNat image.size

/-- The bytes between two positions. -/
def slice (image : Image) (start stop : Int) : List UInt8 :=
  (image.bytes.extract (image.place start) (image.place stop)).toList

/-- The bytes of a range, which must lie in the image. -/
def range (image : Image) (rva size : Int) : Except RangeError (List UInt8) :=
  if rva < 0 ∨ size < 0 ∨ rva + size > image.size then .error ⟨rva, size⟩
  else .ok (image.slice rva (rva + size))

/-- The byte at a place; zero outside. -/
def byteAt (image : Image) (place : Nat) : UInt8 :=
  image.bytes[place]?.getD 0

end Image

/-- The number that bytes write, least significant first. -/
def littleEndian : List UInt8 → Nat
  | [] => 0
  | b :: rest => b.toNat + 0x100 * littleEndian rest

/-- A number of `bits` bits read as a signed one. -/
def asSigned (bits n : Nat) : Int :=
  if n < Nat.pow 2 (bits - 1) then n else (n : Int) - (Nat.pow 2 bits : Nat)

end CilAtlas
