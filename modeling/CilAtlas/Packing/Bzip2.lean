import CilAtlas.Packing.Checksum
import CilAtlas.Packing.Pieces

/-!
# Bzip2 files

The content is divided into blocks.  Long runs in a block are shortened, the
last bytes of its sorted rotations are taken, each is replaced by its place in a
list of recently seen bytes, and runs of zeroes are counted.  What results is
written as bits; all signs have codes of the same length here, so that the tables
of codes are as simple as the format allows.
-/

namespace CilAtlas
namespace Bzip2

/-! ## Bits -/

/-- A number with the count of bits that it takes. -/
structure Field where
  width : Nat
  value : Nat

/-- The bits of a number, the greatest first. -/
def Field.bits (field : Field) : List Bool :=
  (List.range field.width).map fun i => field.value.testBit (field.width - 1 - i)

/-- The bytes of a sequence of bits, filled up with zeroes. -/
def bytesOfBits : List Bool → List UInt8
  | a :: b :: c :: d :: e :: f :: g :: h :: rest =>
    byte [a, b, c, d, e, f, g, h] :: bytesOfBits rest
  | [] => []
  | rest => [byte (rest ++ List.replicate (8 - rest.length) false)]
where
  /-- The byte with the given bits. -/
  byte (bits : List Bool) : UInt8 :=
    bits.foldl (fun value bit => value * 2 + (if bit then 1 else 0)) 0

/-! ## Runs -/

/-- The bytes of a sequence, each with the length of its run. -/
def runsOf : List UInt8 → List (UInt8 × Nat)
  | [] => []
  | b :: rest =>
    match runsOf rest with
    | (c, n) :: runs => if b = c then (b, n + 1) :: runs else (b, 1) :: (c, n) :: runs
    | [] => [(b, 1)]

/-- The longest run that is written at once. -/
def longestRun : Nat := 255

/-- A run that is written at once: four bytes stand for a run of four or more, and
a count of the others follows. -/
def shortRun (b : UInt8) (length : Nat) : List UInt8 :=
  if length < 4 then List.replicate length b
  else [b, b, b, b, (length - 4).toUInt8]

/-- A run of any length. -/
def writtenRun (b : UInt8) (length : Nat) : List UInt8 :=
  (List.replicate (length / longestRun) (shortRun b longestRun)).flatten ++
    shortRun b (length % longestRun)

/-- The bytes with long runs shortened. -/
def shortened (bytes : List UInt8) : List UInt8 :=
  (runsOf bytes).flatMap fun (b, length) => writtenRun b length

/-! ## Rotations -/

/-- The order of pairs of numbers, the first ones first. -/
def pairLe (a b : Nat × Nat) : Bool :=
  if a.1 = b.1 then a.2 ≤ b.2 else a.1 < b.1

/-- Ranks the places by their keys: places with equal keys have equal ranks. -/
def rankBy (size : Nat) (key : Nat → Nat × Nat) : Array Nat :=
  let sorted := (List.range size).mergeSort fun i j => pairLe (key i) (key j)
  let (ranks, _, _) := sorted.foldl (fun (ranks, rank, last) i =>
    let rank := if key i = last then rank else rank + 1
    (ranks.setIfInBounds i rank, rank, key i)) (Array.replicate size 0, 0, (0, 0))
  ranks

/-- Ranks the rotations by twice as many bytes as before. -/
def doubled (ranks : Array Nat) (length : Nat) : Array Nat :=
  rankBy ranks.size fun i => (ranks.getD i 0, ranks.getD ((i + length) % ranks.size) 0)

/-- The ranks of the rotations that start at each place. -/
def rotationRanks (block : Array UInt8) : Array Nat :=
  (List.range (block.size.log2 + 1)).foldl (fun ranks i => doubled ranks (Nat.pow 2 i))
    (block.map fun b => b.toNat)

/-- Where the rotations start, in their order. -/
def sortedStarts (block : Array UInt8) : List Nat :=
  let ranks := rotationRanks block
  (List.range block.size).mergeSort fun i j => ranks.getD i 0 ≤ ranks.getD j 0

/-- The last bytes of the rotations that start at the given places. -/
def lastBytes (block : Array UInt8) (starts : List Nat) : List UInt8 :=
  starts.map fun start => block.getD ((start + block.size - 1) % block.size) 0

/-! ## Signs -/

/-- The places of the bytes in a list from which each is moved to the front. -/
def recency : (recent bytes : List UInt8) → List Nat
  | _, [] => []
  | recent, b :: rest => recent.idxOf b :: recency (b :: recent.erase b) rest

/-- The digits of the length of a run of zeroes: ones and twos in base two, the
least first, each written as one less. -/
def runDigits (length : Nat) : List Nat :=
  if length = 0 then []
  else (length - 1) % 2 :: runDigits ((length - 1) / 2)
termination_by length

/-- The signs for the places that follow a run of zeroes. -/
def signsOf : (zeroes : Nat) → List Nat → List Nat
  | zeroes, [] => runDigits zeroes
  | zeroes, 0 :: rest => signsOf (zeroes + 1) rest
  | zeroes, (place + 1) :: rest => runDigits zeroes ++ (place + 2) :: signsOf 0 rest

/-! ## Blocks -/

/-- The bytes that occur, in ascending order. -/
def usedBytes (bytes : List UInt8) : List UInt8 :=
  ((List.range 256).map Nat.toUInt8).filter bytes.contains

/-- A single bit. -/
def flag (value : Bool) : Field :=
  ⟨1, if value then 1 else 0⟩

/-- Which bytes occur: which rows of sixteen, then which bytes of those rows. -/
def usedFields (used : List UInt8) : List Field :=
  let inRow (row : Nat) := used.any fun b => b.toNat / 16 = row
  let rows := List.range 16
  rows.map (fun row => flag (inRow row)) ++
    (rows.filter inRow).flatMap fun row =>
      rows.map fun i => flag (used.contains (16 * row + i).toUInt8)

/-- How many bits tell the given count of signs apart. -/
def codeWidth (signs : Nat) : Nat :=
  (signs - 1).log2 + 1

/-- How many signs follow each choice of a table. -/
def groupSize : Nat := 50

/-- The fields of a block.  There are two tables, which are alike, and the first
is always chosen. -/
def blockFields (content : List UInt8) : List Field :=
  let block := (shortened content).toArray
  let starts := sortedStarts block
  let used := usedBytes block.toList
  let signCount := used.length + 2
  let signs := signsOf 0 (recency used (lastBytes block starts)) ++ [signCount - 1]
  let width := codeWidth signCount
  let groups := (signs.length + groupSize - 1) / groupSize
  let table := (⟨5, width⟩ : Field) :: List.replicate signCount (flag false)
  [⟨48, 0x314159265359⟩, ⟨32, (Checksum.greatestFirst content).toNat⟩, flag false,
      ⟨24, starts.idxOf 0⟩] ++
    usedFields used ++ [⟨3, 2⟩, ⟨15, groups⟩] ++ List.replicate groups (flag false) ++
    table ++ table ++ signs.map fun sign => ⟨width, sign⟩

/-- One less than how much of the content goes into a block: with runs written in
full it grows by a quarter at most. -/
def blockLimit : Nat := 699999

/-- The checksum of the blocks together. -/
def wholeChecksum (blocks : List (List UInt8)) : UInt32 :=
  blocks.foldl (fun sum block =>
    ((sum <<< 1) ||| (sum >>> 31)) ^^^ Checksum.greatestFirst block) 0

/-- The file with the given content. -/
def pack (content : List UInt8) : List UInt8 :=
  let blocks := (piecesOf blockLimit content).filter fun block => !block.isEmpty
  let fields := blocks.flatMap blockFields ++
    [⟨48, 0x177245385090⟩, ⟨32, (wholeChecksum blocks).toNat⟩]
  [0x42, 0x5A, 0x68, 0x39] ++ bytesOfBits (fields.flatMap Field.bits)

end Bzip2
end CilAtlas
