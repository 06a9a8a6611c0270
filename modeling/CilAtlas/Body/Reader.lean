import CilAtlas.Body.Extent
import CilAtlas.Body.Instruction
import CilAtlas.Body.Opcode

/-!
# Reading inside a body

A reader looks at an image through a window that ends at a limit, and stands at
a position.  Reads that would pass the limit fail and do not move.  A position
may be negative, and then a read within the limit can yield fewer bytes than
asked for; it has moved all the same.  An instruction that fails has consumed
what it had read so far.
-/

namespace CilAtlas
namespace Body

/-- An image and the position that no read may pass. -/
structure Window where
  image : Image
  limit : Int

/-- A step that reads through a window from a position, which it moves. -/
abbrev Read (α : Type) := ReaderT Window (EStateM BodyFault Int) α

/-- The window of the body at `rva`: up to the given limit, or to the body's own
extent. -/
def Window.of (image : Image) (rva : Int) (limit? : Option Int) : Except BodyFault Window :=
  match limit? with
  | some limit => .ok ⟨image, min limit image.size⟩
  | none => (extent image rva).map fun stop => ⟨image, stop⟩

/-- The current position. -/
def currentPosition : Read Int := fun _ position =>
  .ok position position

/-- Moves to a position. -/
def seek (target : Int) : Read Unit := fun _ _ =>
  .ok () target

/-- The next `count` bytes. -/
def read (count : Int) : Read (List UInt8) := fun window position =>
  if count < 0 ∨ position + count > window.limit then .error (.pastEnd position) position
  else .ok (window.image.slice position (position + count)) (position + count)

/-- The next `count` bytes, all of them.  When there are fewer, the fault names
the position as many bytes back as there were. -/
def readExact (count : Nat) : Read (List UInt8) := fun window position =>
  match read count window position with
  | .error _ after => .error (.unreadable count after) after
  | .ok bytes after =>
    if bytes.length = count then .ok bytes after
    else .error (.shortRead (after - bytes.length)) after

/-- An unsigned number of `count` bytes, with its bytes. -/
def readUnsigned (count : Nat) : Read (Nat × List UInt8) := do
  let bytes ← readExact count
  return (littleEndian bytes, bytes)

/-- A signed number of `count` bytes, with its bytes. -/
def readSigned (count : Nat) : Read (Int × List UInt8) := do
  let bytes ← readExact count
  return (asSigned (8 * count) (littleEndian bytes), bytes)

/-- The next operation and its bytes. -/
def readOpcode : Read (Opcode × List UInt8) := do
  let first ← readExact 1
  if first = [escapeByte] then
    let second ← readExact 1
    return (Opcode.ofEscapedByte (second.headD 0), first ++ second)
  else return (Opcode.ofByte (first.headD 0), first)

/-- `count` signed numbers of four bytes, with their bytes. -/
def readDeltas : (count : Nat) → Read (List Int × List UInt8)
  | 0 => pure ([], [])
  | count + 1 => do
    let (delta, bytes) ← readSigned 4
    let (deltas, more) ← readDeltas count
    return (delta :: deltas, bytes ++ more)

/-- A branch table: a count and that many distances from the end of the
instruction, which starts `opcodeSize` bytes before. -/
def readSwitch (offset : Int) (opcodeSize : Nat) : Read (Operand × List UInt8) := do
  let (count, bytes) ← readUnsigned 4
  let (deltas, more) ← readDeltas count
  let base := offset + opcodeSize + 4 + 4 * count
  return (.list (deltas.map fun delta => .int (base + delta)), bytes ++ more)

/-- The number of branches that the table ahead states, as far as its count lies
in the image. -/
def peekCount (window : Window) (position : Int) : Nat :=
  littleEndian (window.image.slice position (position + 4))

/-- A branch table, refused at once when it cannot fit. -/
def readGuardedSwitch (offset : Int) (opcodeSize : Nat) : Read (Operand × List UInt8) :=
  fun window position =>
    let count := peekCount window position
    if position + 4 + count * 4 > window.limit then
      .error (.switchOverrun count position) position
    else readSwitch offset opcodeSize window position

/-- The operand of an operation whose code took `opcodeSize` bytes at `offset`,
with its bytes. -/
def readOperand (kind : OperandKind) (offset : Int) (opcodeSize : Nat) :
    Read (Operand × List UInt8) :=
  match kind with
  | .none => pure (.none, [])
  | .int8 => do
    let (value, bytes) ← readSigned 1
    return (.int value, bytes)
  | .int32 => do
    let (value, bytes) ← readSigned 4
    return (.int value, bytes)
  | .int64 => do
    let (value, bytes) ← readSigned 8
    return (.int value, bytes)
  | .float32 => do
    let (value, bytes) ← readUnsigned 4
    return (.float (Double.ofSingleBits value), bytes)
  | .float64 => do
    let (value, bytes) ← readUnsigned 8
    return (.float ⟨value.toUInt64⟩, bytes)
  | .token => do
    let (value, bytes) ← readUnsigned 4
    return (.token value, bytes)
  | .string => do
    let (value, bytes) ← readUnsigned 4
    return (.string value, bytes)
  | .argument8 => do
    let (value, bytes) ← readUnsigned 1
    return (.argument value, bytes)
  | .argument16 => do
    let (value, bytes) ← readUnsigned 2
    return (.argument value, bytes)
  | .local8 => do
    let (value, bytes) ← readUnsigned 1
    return (.local value, bytes)
  | .local16 => do
    let (value, bytes) ← readUnsigned 2
    return (.local value, bytes)
  | .shortBranch => do
    let (delta, bytes) ← readSigned 1
    return (.int (offset + opcodeSize + 1 + delta), bytes)
  | .branch => do
    let (delta, bytes) ← readSigned 4
    return (.int (offset + opcodeSize + 4 + delta), bytes)
  | .switch => readGuardedSwitch offset opcodeSize

/-- The instruction at the current position, which counts as `offset`. -/
def readInstruction (offset : Int) : Read Instruction := do
  let (opcode, code) ← readOpcode
  let (operand, bytes) ← readOperand opcode.operand offset code.length
  return ⟨offset, opcode.mnemonic, operand, code ++ bytes⟩

end Body
end CilAtlas
