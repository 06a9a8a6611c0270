import CilAtlas.Text.Basic

/-!
# UTF-16

User strings are stored as sixteen-bit units, the least significant byte first
unless a mark says otherwise.  A high unit followed by a low
unit is one code point; any other surrogate, and a byte left over at the end,
is ill formed.
-/

namespace CilAtlas
namespace Utf16

/-- First half of a pair. -/
def isHigh (unit : Nat) : Bool :=
  0xD800 ≤ unit && unit ≤ 0xDBFF

/-- Second half of a pair. -/
def isLow (unit : Nat) : Bool :=
  0xDC00 ≤ unit && unit ≤ 0xDFFF

/-- The pieces of a byte sequence; `none` is an ill-formed piece.  A high unit
with less than a whole unit after it takes the rest of the bytes. -/
def pieces : List UInt8 → List (Option CodePoint)
  | [] => []
  | [_] => [none]
  | a :: b :: rest =>
    let unit := a.toNat + 0x100 * b.toNat
    if isHigh unit then
      match rest with
      | c :: d :: tail =>
        let next := c.toNat + 0x100 * d.toNat
        if isLow next then
          CodePoint.ofNat? (0x10000 + (unit - 0xD800) * 0x400 + (next - 0xDC00))
            :: pieces tail
        else none :: pieces (c :: d :: tail)
      | _ => [none]
    else if isLow unit then none :: pieces rest
    else CodePoint.ofNat? unit :: pieces rest

/-- The text of well-formed bytes. -/
def decode? (bytes : List UInt8) : Option Text :=
  (pieces bytes).mapM id

/-- Each two bytes exchanged. -/
def swapped : List UInt8 → List UInt8
  | a :: b :: rest => b :: a :: swapped rest
  | rest => rest

/-- The text of well-formed bytes after a mark that gives their order, which is not
part of the text. -/
def decodeMarked? : List UInt8 → Option Text
  | 0xFF :: 0xFE :: rest => decode? rest
  | 0xFE :: 0xFF :: rest => decode? (swapped rest)
  | bytes => decode? bytes

/-- The text of any bytes, ill-formed pieces replaced. -/
def decodeLenient (bytes : List UInt8) : Text :=
  (pieces bytes).map (·.getD CodePoint.replacement)

end Utf16
end CilAtlas
