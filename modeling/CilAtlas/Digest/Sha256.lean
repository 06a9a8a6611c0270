/-!
# SHA-256

The digest by which images and signature blobs are told apart.  Words are of
32 bits and arithmetic wraps.  A message is padded to whole blocks of 64 bytes;
each block is expanded to 64 words and mixed into the eight words of the state.
-/

namespace CilAtlas
namespace Sha256

/-- The round constants. -/
def roundConstants : List UInt32 :=
  [0x428a2f98, 0x71374491, 0xb5c0fbcf, 0xe9b5dba5, 0x3956c25b, 0x59f111f1, 0x923f82a4, 0xab1c5ed5,
    0xd807aa98, 0x12835b01, 0x243185be, 0x550c7dc3, 0x72be5d74, 0x80deb1fe, 0x9bdc06a7, 0xc19bf174,
    0xe49b69c1, 0xefbe4786, 0x0fc19dc6, 0x240ca1cc, 0x2de92c6f, 0x4a7484aa, 0x5cb0a9dc, 0x76f988da,
    0x983e5152, 0xa831c66d, 0xb00327c8, 0xbf597fc7, 0xc6e00bf3, 0xd5a79147, 0x06ca6351, 0x14292967,
    0x27b70a85, 0x2e1b2138, 0x4d2c6dfc, 0x53380d13, 0x650a7354, 0x766a0abb, 0x81c2c92e, 0x92722c85,
    0xa2bfe8a1, 0xa81a664b, 0xc24b8b70, 0xc76c51a3, 0xd192e819, 0xd6990624, 0xf40e3585, 0x106aa070,
    0x19a4c116, 0x1e376c08, 0x2748774c, 0x34b0bcb5, 0x391c0cb3, 0x4ed8aa4a, 0x5b9cca4f, 0x682e6ff3,
    0x748f82ee, 0x78a5636f, 0x84c87814, 0x8cc70208, 0x90befffa, 0xa4506ceb, 0xbef9a3f7, 0xc67178f2]

/-- The eight words that are carried from block to block. -/
structure State where
  a : UInt32
  b : UInt32
  c : UInt32
  d : UInt32
  e : UInt32
  f : UInt32
  g : UInt32
  h : UInt32

/-- The state before the first block. -/
def State.start : State :=
  ⟨0x6a09e667, 0xbb67ae85, 0x3c6ef372, 0xa54ff53a, 0x510e527f, 0x9b05688c, 0x1f83d9ab, 0x5be0cd19⟩

/-- Sum of two states, word by word. -/
def State.add (s t : State) : State :=
  ⟨s.a + t.a, s.b + t.b, s.c + t.c, s.d + t.d, s.e + t.e, s.f + t.f, s.g + t.g, s.h + t.h⟩

/-- The words of a state in order. -/
def State.words (s : State) : List UInt32 :=
  [s.a, s.b, s.c, s.d, s.e, s.f, s.g, s.h]

/-- Rotation to the right by `k` bits, `0 < k < 32`. -/
def rotate (x k : UInt32) : UInt32 :=
  (x >>> k) ||| (x <<< (32 - k))

/-- One round with a round constant and a word of the schedule. -/
def round (s : State) (constant word : UInt32) : State :=
  let mix1 := rotate s.e 6 ^^^ rotate s.e 11 ^^^ rotate s.e 25
  let choice := (s.e &&& s.f) ^^^ (~~~s.e &&& s.g)
  let t1 := s.h + mix1 + choice + constant + word
  let mix0 := rotate s.a 2 ^^^ rotate s.a 13 ^^^ rotate s.a 22
  let majority := (s.a &&& s.b) ^^^ (s.a &&& s.c) ^^^ (s.b &&& s.c)
  ⟨t1 + (mix0 + majority), s.a, s.b, s.c, s.d + t1, s.e, s.f, s.g⟩

/-- The next word of the schedule, from the sixteen before it. -/
def nextWord (window : List UInt32) : UInt32 :=
  let at_ (i : Nat) : UInt32 := window.getD i 0
  let x := at_ 1
  let y := at_ 14
  let small0 := rotate x 7 ^^^ rotate x 18 ^^^ (x >>> 3)
  let small1 := rotate y 17 ^^^ rotate y 19 ^^^ (y >>> 10)
  at_ 0 + small0 + at_ 9 + small1

/-- Runs the rounds over a sliding window of sixteen schedule words. -/
def rounds : List UInt32 → (window : List UInt32) → State → State
  | [], _, s => s
  | constant :: constants, window, s =>
    rounds constants (window.drop 1 ++ [nextWord window]) (round s constant (window.headD 0))

/-- Words of four bytes, most significant byte first. -/
def wordsOf : List UInt8 → List UInt32
  | a :: b :: c :: d :: rest =>
    (((a.toUInt32 <<< 8 ||| b.toUInt32) <<< 8 ||| c.toUInt32) <<< 8 ||| d.toUInt32) :: wordsOf rest
  | _ => []

/-- The state after a block. -/
def absorb (s : State) (block : List UInt8) : State :=
  s.add (rounds roundConstants (wordsOf block) s)

/-- The state after `count` blocks. -/
def absorbAll : (count : Nat) → List UInt8 → State → State
  | 0, _, s => s
  | count + 1, bytes, s => absorbAll count (bytes.drop 64) (absorb s (bytes.take 64))

/-- The bytes of a number in `count` places, most significant first. -/
def bigEndian (count n : Nat) : List UInt8 :=
  (List.range count).reverse.map fun i => (n / Nat.pow 256 i).toUInt8

/-- The message with its end mark, filling and length in bits. -/
def pad (message : List UInt8) : List UInt8 :=
  let zeroes := (119 - message.length % 64) % 64
  message ++ 0x80 :: List.replicate zeroes 0 ++ bigEndian 8 (8 * message.length)

/-- The digest of a message: 32 bytes. -/
def digest (message : List UInt8) : List UInt8 :=
  let padded := pad message
  (absorbAll (padded.length / 64) padded State.start).words.flatMap fun w => bigEndian 4 w.toNat

end Sha256
end CilAtlas
