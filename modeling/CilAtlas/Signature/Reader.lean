import CilAtlas.Blob.Reader
import CilAtlas.Signature.Basic

/-!
# Reading signatures

A type is read by its first byte and, for the composite ones, by reading the
types inside it.  `typeStep` reads one level, given a reader for the types
inside; `readType` ties the knot.  Every level consumes its first byte before
it reads further in, so as many levels as there are bytes are always enough.
-/

namespace CilAtlas
namespace Signature

open Blob

/-- The kind of a named type, from its element byte. -/
def namedKind? (b : UInt8) : Option NamedKind :=
  match Element.ofByte? b with
  | some .valueType => some .valueType
  | some .classType => some .classType
  | _ => none

/-- The byte between the fixed and the variable parameters. -/
def sentinel : UInt8 := 0x41

/-- Bit of the calling convention that says a generic arity follows. -/
def genericBit : UInt8 := 0x10

/-- Passes over the sentinels in front of a parameter. -/
def skipSentinels : Read Unit := fun r =>
  .ok () (r.advance (r.rest.takeWhile (· = sentinel)).length)

/-- A method: convention, arity if announced, parameter count, result and
parameters. -/
def methodStep (inner : Read Ty) : Read MethodShape := do
  let header ← readByte
  let arity ← if header &&& genericBit = 0 then pure 0 else readUnsigned
  let count ← readUnsigned
  let result ← inner
  let parameters ← repeatRead (do skipSentinels; inner) count
  return ⟨header, arity, result, parameters⟩

/-- The parts of a generic instance after its element byte. -/
def instanceStep (inner : Read Ty) : Read Ty := do
  let kindByte ← readByte
  match namedKind? kindByte with
  | none => throw (.badInstanceKind kindByte)
  | some kind =>
    let type ← readTypeHandle
    let count ← readUnsigned
    let arguments ← repeatRead inner count
    return .genericInstance kind type arguments

/-- The parts of an array after its element byte: element type, rank, sizes and
lower bounds. -/
def arrayStep (inner : Read Ty) : Read Ty := do
  let element ← inner
  let rank ← readUnsigned
  let sizeCount ← readUnsigned
  let sizes ← repeatRead readUnsigned sizeCount
  let boundCount ← readUnsigned
  let lowerBounds ← repeatRead readSigned boundCount
  return .array element rank sizes lowerBounds

/-- One level of a type, the types inside read by `inner`. -/
def typeStep (inner : Read Ty) : Read Ty := do
  let b ← readByte
  match Element.ofByte? b with
  | none => throw (.badElement b)
  | some (.primitive type) => return .primitive type
  | some .valueType => return .named .valueType (← readTypeHandle)
  | some .classType => return .named .classType (← readTypeHandle)
  | some .vector => return .vector (← inner)
  | some .pointer => return .pointer (← inner)
  | some .byRef => return .byRef (← inner)
  | some .pinned => return .pinned (← inner)
  | some .typeVariable => return .typeVariable (← readUnsigned)
  | some .methodVariable => return .methodVariable (← readUnsigned)
  | some .genericInstance => instanceStep inner
  | some .array => arrayStep inner
  | some .function =>
    let shape ← methodStep inner
    return .function shape.header shape.arity shape.result shape.parameters
  | some .requiredModifier =>
    let modifier ← readTypeHandle
    return .modified true modifier (← inner)
  | some .optionalModifier =>
    let modifier ← readTypeHandle
    return .modified false modifier (← inner)

/-- A type of at most `depth` levels. -/
def readTypeUpTo : (depth : Nat) → Read Ty
  | 0 => throw .endOfBlob
  | depth + 1 => typeStep (readTypeUpTo depth)

/-- A type. -/
def readType : Read Ty := fun r =>
  readTypeUpTo (r.remaining + 1) r

/-- A method, its calling convention not yet looked at. -/
def readMethod : Read MethodShape := fun r =>
  methodStep (readTypeUpTo (r.remaining + 1)) r

/-- The calling convention byte, unless the blob is empty. -/
def header? (blob : List UInt8) : Option UInt8 :=
  blob.head?

/-- The conventions in the low four bits that are no method's: field, locals,
property and method instance. -/
def otherConventions : List UInt8 := [0x06, 0x07, 0x08, 0x0A]

/-- Whether the convention byte is a method's. -/
def isMethodHeader (header : UInt8) : Bool :=
  !otherConventions.contains (header &&& 0x0F)

/-- Whether a blob starts like a method signature. -/
def isMethodBlob (blob : List UInt8) : Bool :=
  (header? blob).any isMethodHeader

/-- A method signature. -/
def readMethodSignature : Read MethodShape := do
  let header ← peekByte
  if isMethodHeader header then readMethod else throw (.notMethod header)

/-- A field signature. -/
def readFieldSignature : Read Ty := do
  let header ← readByte
  if header &&& 0x0F = 0x06 then readType else throw (.notField header)

/-- The type arguments of a generic method's instance. -/
def readMethodInstance : Read (List Ty) := do
  let header ← readByte
  if header = 0x0A then
    let count ← readUnsigned
    repeatRead readType count
  else throw (.notMethodInstance header)

/-- Passes over at most `limit` custom modifiers. -/
def skipModifiersUpTo : (limit : Nat) → Read Unit
  | 0 => pure ()
  | limit + 1 => do
    let b ← peekByte
    match Element.ofByte? b with
    | some .requiredModifier | some .optionalModifier =>
      let _ ← readByte
      let _ ← readTypeHandle
      skipModifiersUpTo limit
    | _ => pure ()

/-- Passes over the custom modifiers ahead. -/
def skipModifiers : Read Unit := fun r =>
  skipModifiersUpTo (r.remaining + 1) r

/-- The generic type and the arguments of a generic instance. -/
def readTypeInstance : Read (Handle × List Ty) := do
  skipModifiers
  let element ← readByte
  if Element.ofByte? element = some .genericInstance then
    let kindByte ← readByte
    if (namedKind? kindByte).isSome then
      let type ← readTypeHandle
      let count ← readUnsigned
      let arguments ← repeatRead readType count
      return (type, arguments)
    else throw .badInstanceHead
  else throw .notTypeInstance

end Signature
end CilAtlas
