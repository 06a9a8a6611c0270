import CilAtlas.Text.Basic

/-!
# UTF-8

Encoding refuses surrogates.  Decoding splits the bytes into code points and
maximal ill-formed pieces; strict decoding accepts no ill-formed piece, lenient
decoding puts U+FFFD in the place of each.
-/

namespace CilAtlas
namespace Utf8

/-- The bytes of one code point; `none` for a surrogate. -/
def encodePoint? (c : CodePoint) : Option (List UInt8) :=
  let n := c.toNat
  if n < 0x80 then some [n.toUInt8]
  else if n < 0x800 then
    some [(0xC0 + n / 0x40).toUInt8, (0x80 + n % 0x40).toUInt8]
  else if c.isSurrogate then none
  else if n < 0x10000 then
    some [(0xE0 + n / 0x1000).toUInt8, (0x80 + n / 0x40 % 0x40).toUInt8,
      (0x80 + n % 0x40).toUInt8]
  else
    some [(0xF0 + n / 0x40000).toUInt8, (0x80 + n / 0x1000 % 0x40).toUInt8,
      (0x80 + n / 0x40 % 0x40).toUInt8, (0x80 + n % 0x40).toUInt8]

/-- The bytes of a text; `none` when it holds a surrogate. -/
def encode? (t : Text) : Option (List UInt8) :=
  (t.mapM encodePoint?).map List.flatten

/-- What a lead byte asks for: how many trailing bytes, the range of the first
of them, and the bits that the lead byte itself brings. -/
structure Lead where
  trailing : Nat
  low : Nat
  high : Nat
  bits : Nat

/-- The demand of a byte that can open a sequence. -/
def lead? (b : UInt8) : Option Lead :=
  let n := b.toNat
  if n < 0x80 then some ⟨0, 0x80, 0xBF, n⟩
  else if n < 0xC2 then none
  else if n < 0xE0 then some ⟨1, 0x80, 0xBF, n - 0xC0⟩
  else if n = 0xE0 then some ⟨2, 0xA0, 0xBF, 0⟩
  else if n = 0xED then some ⟨2, 0x80, 0x9F, 0xD⟩
  else if n < 0xF0 then some ⟨2, 0x80, 0xBF, n - 0xE0⟩
  else if n = 0xF0 then some ⟨3, 0x90, 0xBF, 0⟩
  else if n < 0xF4 then some ⟨3, 0x80, 0xBF, n - 0xF0⟩
  else if n = 0xF4 then some ⟨3, 0x80, 0x8F, 4⟩
  else none

/-- Takes trailing bytes while they are in range.  The result is the number
read, when no byte is missing, and how many bytes were taken. -/
def takeTrailing : (need low high value : Nat) → List UInt8 → Option Nat × Nat
  | 0, _, _, value, _ => (some value, 0)
  | _ + 1, _, _, _, [] => (none, 0)
  | need + 1, low, high, value, b :: rest =>
    if low ≤ b.toNat ∧ b.toNat ≤ high then
      let (result, taken) := takeTrailing need 0x80 0xBF (value * 0x40 + b.toNat % 0x40) rest
      (result, taken + 1)
    else (none, 0)

/-- The first piece of `b :: rest`: a code point or an ill-formed piece, with
the number of bytes of `rest` that belong to it. -/
def piece (b : UInt8) (rest : List UInt8) : Option CodePoint × Nat :=
  match lead? b with
  | none => (none, 0)
  | some lead =>
    let (value, taken) := takeTrailing lead.trailing lead.low lead.high lead.bits rest
    (value.bind CodePoint.ofNat?, taken)

/-- The pieces of a byte sequence; `none` is a maximal ill-formed piece. -/
def pieces : List UInt8 → List (Option CodePoint)
  | [] => []
  | b :: rest =>
    let (point, taken) := piece b rest
    point :: pieces (rest.drop taken)
termination_by bytes => bytes.length
decreasing_by simp only [List.length_drop, List.length_cons]; omega

/-- The text of well-formed bytes. -/
def decode? (bytes : List UInt8) : Option Text :=
  (pieces bytes).mapM id

/-- The text of any bytes, ill-formed pieces replaced. -/
def decodeLenient (bytes : List UInt8) : Text :=
  (pieces bytes).map (·.getD CodePoint.replacement)

end Utf8
end CilAtlas
