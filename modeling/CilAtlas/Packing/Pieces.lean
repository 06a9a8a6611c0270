/-!
# Pieces of a byte sequence
-/

namespace CilAtlas

/-- The bytes in pieces of `limit + 1` bytes, the last of which may be shorter. -/
def piecesOf (limit : Nat) (bytes : List UInt8) : List (List UInt8) :=
  if bytes.length ≤ limit + 1 then [bytes]
  else bytes.take (limit + 1) :: piecesOf limit (bytes.drop (limit + 1))
termination_by bytes.length
decreasing_by simp only [List.length_drop]; omega

end CilAtlas
