import CilAtlas.Text.Basic

/-!
# Written numbers

Decimal and hexadecimal numerals for unbounded integers.  A negative number is
its sign followed by its absolute value; a width counts the sign, and zeroes
fill the space between sign and digits.
-/

namespace CilAtlas
namespace Text

/-- Digits of `n` in the given base, most significant first, using at most
`fuel` divisions. -/
def digitsUpTo (base : Nat) : (fuel n : Nat) → List Nat
  | 0, n => [n]
  | fuel + 1, n =>
    if n < base then [n] else digitsUpTo base fuel (n / base) ++ [n % base]

/-- Digits of `n` in a base of at least two, most significant first. -/
def digits (base n : Nat) : List Nat :=
  digitsUpTo base n n

/-- The digit sign for a value below sixteen, in capital letters. -/
def digitSign (d : Nat) : CodePoint :=
  if d < 10 then ⟨0x30 + d % 10, by omega⟩ else ⟨0x41 + (d - 10) % 6, by omega⟩

/-- The same sign with small letters. -/
def digitSignLower (d : Nat) : CodePoint :=
  if d < 10 then ⟨0x30 + d % 10, by omega⟩ else ⟨0x61 + (d - 10) % 6, by omega⟩

/-- Decimal numeral of a natural number. -/
def ofNat (n : Nat) : Text :=
  (digits 10 n).map digitSign

/-- Decimal numeral of an integer. -/
def ofInt : Int → Text
  | .ofNat n => ofNat n
  | .negSucc n => lit "-" ++ ofNat (n + 1)

/-- Zeroes in front of `t` up to the given width. -/
def zeroPad (width : Nat) (t : Text) : Text :=
  List.replicate (width - t.length) (CodePoint.ofChar '0') ++ t

/-- Hexadecimal numeral in capital letters, at least `width` wide. -/
def hexNat (width n : Nat) : Text :=
  zeroPad width ((digits 16 n).map digitSign)

/-- Hexadecimal numeral of an integer; the sign counts in the width. -/
def hexInt (width : Nat) : Int → Text
  | .ofNat n => hexNat width n
  | .negSucc n => lit "-" ++ hexNat (width - 1) (n + 1)

/-- One byte as two hexadecimal digits in capital letters. -/
def hexByte (b : UInt8) : Text :=
  [digitSign (b.toNat / 16), digitSign (b.toNat % 16)]

/-- Bytes as pairs of hexadecimal digits in small letters. -/
def hexBytesLower (bytes : List UInt8) : Text :=
  bytes.flatMap fun b => [digitSignLower (b.toNat / 16), digitSignLower (b.toNat % 16)]

/-- The bytes that pairs of hexadecimal digits write; a digit left over writes
none. -/
def bytesOfHex : Text → List UInt8
  | high :: low :: rest =>
    ((high.hexValue?.getD 0) * 16 + low.hexValue?.getD 0).toUInt8 :: bytesOfHex rest
  | _ => []

end Text
end CilAtlas
