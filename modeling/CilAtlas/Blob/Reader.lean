import CilAtlas.Metadata.Handle

/-!
# Reading signature blobs

A reader stands at a position in a blob and sees the bytes from there on.
Numbers in a blob are compressed: a first byte below `0x80` is the number, a
second byte follows when bit `0x40` of the first is clear, and three more follow
when only bit `0x20` is clear.  A read that fails leaves the reader where it
was; only a bad handle tag is noticed after its number has been read.
-/

namespace CilAtlas

/-- Why a signature blob cannot be read. -/
inductive SignatureFault where
  | endOfBlob
  | badInteger (position : Nat)
  | badHandleTag (tag : Nat)
  | notMethod (header : UInt8)
  | notField (header : UInt8)
  | notMethodInstance (header : UInt8)
  | notTypeInstance
  | badInstanceHead
  | badInstanceKind (kind : UInt8)
  | badElement (element : UInt8)
deriving DecidableEq

namespace SignatureFault

/-- The wording of each fault. -/
def message : SignatureFault → Text
  | endOfBlob => lit "Unexpected end of signature blob"
  | badInteger position => lit "Invalid compressed integer at offset " ++ Text.ofNat position
  | badHandleTag tag => lit "Invalid TypeDefOrRef tag " ++ Text.ofNat tag
  | notMethod header =>
    lit "Not a method signature (header 0x" ++ Text.hexByte header ++ lit ")"
  | notField header =>
    lit "Not a field signature (header 0x" ++ Text.hexByte header ++ lit ")"
  | notMethodInstance header =>
    lit "Not a method instantiation (header 0x" ++ Text.hexByte header ++ lit ")"
  | notTypeInstance => lit "Not a generic instantiation"
  | badInstanceHead => lit "Invalid generic instantiation kind"
  | badInstanceKind kind =>
    lit "Invalid generic instantiation kind 0x" ++ Text.hexByte kind
  | badElement element => lit "Unsupported element type 0x" ++ Text.hexByte element

end SignatureFault

namespace Blob

/-- A position in a blob and the bytes from there to its end. -/
structure Reader where
  position : Nat
  rest : List UInt8
deriving DecidableEq

/-- A reader at the start of a blob. -/
def Reader.ofBytes (bytes : List UInt8) : Reader :=
  ⟨0, bytes⟩

/-- How many bytes lie ahead. -/
def Reader.remaining (r : Reader) : Nat :=
  r.rest.length

/-- The reader after `count` more bytes. -/
def Reader.advance (r : Reader) (count : Nat) : Reader :=
  ⟨r.position + count, r.rest.drop count⟩

/-- A step that reads from a blob and may fail; the reader survives a failure. -/
abbrev Read := EStateM SignatureFault Reader

/-- The result of a step on a whole blob. -/
def Read.run {α : Type} (step : Read α) (bytes : List UInt8) : Except SignatureFault α :=
  match step (Reader.ofBytes bytes) with
  | .ok a _ => .ok a
  | .error fault _ => .error fault

/-- The next byte, not consumed. -/
def peekByte : Read UInt8 := fun r =>
  match r.rest with
  | [] => .error .endOfBlob r
  | b :: _ => .ok b r

/-- The next byte. -/
def readByte : Read UInt8 := fun r =>
  match r.rest with
  | [] => .error .endOfBlob r
  | b :: rest => .ok b ⟨r.position + 1, rest⟩

/-- The number at the front of the bytes and how many bytes it takes. -/
def compressed? : List UInt8 → Option (Nat × Nat)
  | [] => none
  | [a] => if a < 0x80 then some (a.toNat, 1) else none
  | a :: b :: rest =>
    if a < 0x80 then some (a.toNat, 1)
    else if a &&& 0x40 = 0 then some ((a &&& 0x7F).toNat * 0x100 + b.toNat, 2)
    else match rest with
      | c :: d :: _ =>
        if a &&& 0x20 = 0 then
          some ((((a &&& 0x3F).toNat * 0x100 + b.toNat) * 0x100 + c.toNat) * 0x100 + d.toNat, 4)
        else none
      | _ => none

/-- A compressed number with the count of its bytes. -/
def readSized : Read (Nat × Nat) := fun r =>
  match compressed? r.rest with
  | none => .error (.badInteger r.position) r
  | some (value, size) => .ok (value, size) (r.advance size)

/-- A compressed number. -/
def readUnsigned : Read Nat := do
  return (← readSized).1

/-- The bits that a compressed number of the given size can hold. -/
def bitsOfSize (size : Nat) : Nat :=
  if size = 1 then 7 else if size = 2 then 14 else 29

/-- Undoes the rotation of a signed number: its sign is the lowest bit. -/
def unrotate (bits raw : Nat) : Int :=
  if raw % 2 = 1 then (raw / 2 : Nat) - (Nat.pow 2 (bits - 1) : Nat) else (raw / 2 : Nat)

/-- A compressed signed number. -/
def readSigned : Read Int := do
  let (raw, size) ← readSized
  return unrotate (bitsOfSize size) raw

/-- The tables that a coded type handle may name, by tag. -/
def typeTables : List TableNumber :=
  [TableNumber.typeDef, TableNumber.typeRef, TableNumber.typeSpec]

/-- A type handle: a compressed number whose two low bits are the table's tag. -/
def readTypeHandle : Read Handle := do
  let coded ← readUnsigned
  match typeTables[coded % 4]? with
  | some table => return ⟨table, (coded / 4 : Nat)⟩
  | none => throw (.badHandleTag (coded % 4))

/-- The same step, `count` times. -/
def repeatRead {α : Type} (step : Read α) : (count : Nat) → Read (List α)
  | 0 => pure []
  | count + 1 => do
    let a ← step
    let rest ← repeatRead step count
    return a :: rest

end Blob
end CilAtlas
