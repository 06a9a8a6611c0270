import CilAtlas.Packing.Checksum
import CilAtlas.Packing.Pieces

/-!
# Gzip files

A header, the content in blocks, its checksum and its length.  The blocks hold
the content as it is.
-/

namespace CilAtlas
namespace Gzip

/-- A number in the given count of bytes, the least first. -/
def numberBytes : (width n : Nat) → List UInt8
  | 0, _ => []
  | width + 1, n => (n % 0x100).toUInt8 :: numberBytes width (n / 0x100)

/-- The header of a file without name and time. -/
def header : List UInt8 :=
  [0x1F, 0x8B, 8, 0, 0, 0, 0, 0, 0, 255]

/-- One less than the greatest length of a block. -/
def blockLimit : Nat := 0xFFFE

/-- A block, its length twice in front of it. -/
def block (isLast : Bool) (content : List UInt8) : List UInt8 :=
  (if isLast then 1 else 0) :: numberBytes 2 content.length ++
    numberBytes 2 (0xFFFF - content.length) ++ content

/-- The blocks one after another, the last one marked. -/
def blocks : List (List UInt8) → List UInt8
  | [] => []
  | [last] => block true last
  | first :: rest => block false first ++ blocks rest

/-- The file with the given content. -/
def pack (content : List UInt8) : List UInt8 :=
  header ++ blocks (piecesOf blockLimit content) ++
    numberBytes 4 (Checksum.leastFirst content).toNat ++ numberBytes 4 content.length

end Gzip
end CilAtlas
