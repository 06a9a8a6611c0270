import CilAtlas.Body.Image

/-!
# Numbers and parts of images
-/

namespace CilAtlas
namespace Image

/-- The number of `width` bytes at a place. -/
def number? (image : Image) (place width : Nat) : Option Nat :=
  if place + width ≤ image.size then
    some (littleEndian (image.bytes.extract place (place + width)).toList)
  else none

end Image
end CilAtlas
