/-!
# Checksums

The remainder of the bytes, read as a polynomial over two elements, by a fixed
one of degree 32.  Two readings are in use: each byte with its least bit first
or with its greatest bit first.
-/

namespace CilAtlas
namespace Checksum

/-- One step of the division that takes the least bit first. -/
def leastFirstStep (rest : UInt32) : UInt32 :=
  if rest &&& 1 = 1 then (rest >>> 1) ^^^ 0xEDB88320 else rest >>> 1

/-- One step of the division that takes the greatest bit first. -/
def greatestFirstStep (rest : UInt32) : UInt32 :=
  if rest &&& 0x80000000 = 0 then rest <<< 1 else (rest <<< 1) ^^^ 0x04C11DB7

/-- The checksum with the least bit of each byte first. -/
def leastFirst (bytes : List UInt8) : UInt32 :=
  ~~~ bytes.foldl (fun rest b => Nat.repeat leastFirstStep 8 (rest ^^^ b.toUInt32)) 0xFFFFFFFF

/-- The checksum with the greatest bit of each byte first. -/
def greatestFirst (bytes : List UInt8) : UInt32 :=
  ~~~ bytes.foldl (fun rest (b : UInt8) =>
    Nat.repeat greatestFirstStep 8 (rest ^^^ b.toUInt32 <<< (24 : UInt32))) 0xFFFFFFFF

end Checksum
end CilAtlas
