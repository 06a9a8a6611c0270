import CilAtlas.Body.Reader

/-!
# Decoding a body

A body is its header, its instructions and, when the header announces them, its
exception handlers.  Instructions are read until the stated code size is
reached; the last one may run past it.  Every instruction takes at least one
byte, so the code size bounds their number.
-/

namespace CilAtlas

/-- A protected block and its handler; numbers count from the start of the
code. -/
structure ExceptionHandler where
  kind : Nat
  tryStart : Nat
  tryEnd : Nat
  filterStart? : Option Nat
  handlerStart : Nat
  handlerEnd : Nat
  catchType? : Option Nat
deriving DecidableEq

/-- A decoded method body. -/
structure Body where
  offset : Int
  headerSize : Nat
  codeSize : Nat
  maxStack : Nat
  flags : Nat
  localSignature? : Option Nat
  size : Int
  instructions : List Instruction
  handlers : List ExceptionHandler

namespace Body

/-- What a header says. -/
structure Header where
  headerSize : Nat
  codeSize : Nat
  maxStack : Nat
  flags : Nat
  localSignature? : Option Nat
  /-- Whether data sections follow the code. -/
  moreSections : Bool
deriving DecidableEq

/-- The header at the current position.  A fat header states its own length in
words, and reading goes on there; one that states less than its three words
does not show the mark for data sections. -/
def readHeader : Read Header := do
  let (first, _) ← readUnsigned 1
  let format := first % 8
  if isTinyFormat format then
    return ⟨1, first / 4, 8, format, none, false⟩
  else if format = fatFormat then
    let (second, _) ← readUnsigned 1
    let flags := second * 0x100 + first
    let words := flags / 0x1000
    let (maxStack, _) ← readUnsigned 2
    let (codeSize, _) ← readUnsigned 4
    let (localToken, _) ← readUnsigned 4
    let position ← currentPosition
    seek (position - 12 + words * 4)
    let moreSections : Bool := flags / 8 % 2 = 1
    let shown := if words < 3 ∧ moreSections then flags - 8 else flags
    let localSignature? := if localToken = 0 then none else some localToken
    return ⟨words * 4, codeSize, maxStack, shown, localSignature?, moreSections⟩
  else throw (.badFormat format)

/-- The instructions up to position `stop`, at most `fuel` of them. -/
def readInstructions (stop : Int) : (fuel : Nat) → Read (List Instruction)
  | 0 => pure []
  | fuel + 1 => do
    let position ← currentPosition
    if position ≥ stop then return []
    else
      let instruction ← readInstruction position
      let rest ← readInstructions stop fuel
      return instruction :: rest

/-- A handler from the numbers of its clause. -/
def handlerOf (kind tryStart tryLength handlerStart handlerLength last : Nat) :
    ExceptionHandler where
  kind := kind
  tryStart := tryStart
  tryEnd := tryStart + tryLength
  filterStart? := if kind % 8 ≠ 0 ∧ kind % 2 = 1 then some last else none
  handlerStart := handlerStart
  handlerEnd := handlerStart + handlerLength
  catchType? := if kind % 8 = 0 then some last else none

/-- One clause, each number having the size given for it. -/
def readClause (flagSize offsetSize lengthSize : Nat) : Read ExceptionHandler := do
  let (kind, _) ← readUnsigned flagSize
  let (tryStart, _) ← readUnsigned offsetSize
  let (tryLength, _) ← readUnsigned lengthSize
  let (handlerStart, _) ← readUnsigned offsetSize
  let (handlerLength, _) ← readUnsigned lengthSize
  let (last, _) ← readUnsigned 4
  return handlerOf kind tryStart tryLength handlerStart handlerLength last

/-- The same clause reader, `count` times. -/
def readClauses (clause : Read ExceptionHandler) : (count : Nat) → Read (List ExceptionHandler)
  | 0 => pure []
  | count + 1 => do
    let handler ← clause
    let rest ← readClauses clause count
    return handler :: rest

/-- The handlers of the first data section, when it is a handler table. -/
def readHandlers : Read (List ExceptionHandler) := do
  let position ← currentPosition
  seek ((position + 3) / 4 * 4)
  let (kind, _) ← readUnsigned 1
  if kind % 0x40 ≠ 1 then return []
  else if kind / 0x40 % 2 = 1 then
    let position ← currentPosition
    seek (position - 1)
    let (word, _) ← readUnsigned 4
    readClauses (readClause 4 4 4) (word / 0x100 / 24)
  else
    let (size, _) ← readUnsigned 1
    let position ← currentPosition
    seek (position + 2)
    readClauses (readClause 2 2 1) (size / 12)

/-- The body at the current position. -/
def readBody : Read Body := do
  let offset ← currentPosition
  let header ← readHeader
  let start := offset + header.headerSize
  let instructions ← readInstructions (start + header.codeSize) header.codeSize
  let handlers ← if header.moreSections then readHandlers else pure []
  let stop ← currentPosition
  seek offset
  let _ ← read (stop - offset)
  return {
    offset := offset
    headerSize := header.headerSize
    codeSize := header.codeSize
    maxStack := header.maxStack
    flags := header.flags
    localSignature? := header.localSignature?
    size := stop - offset
    instructions := instructions
    handlers := handlers }

/-- The body at `rva`, read up to the given limit or to its own extent. -/
def decode (image : Image) (rva : Int) (limit? : Option Int) : Except BodyFault Body :=
  match Window.of image rva limit? with
  | .error fault => .error fault
  | .ok window =>
    match readBody window rva with
    | .ok body _ => .ok body
    | .error fault _ => .error fault

end Body
end CilAtlas
