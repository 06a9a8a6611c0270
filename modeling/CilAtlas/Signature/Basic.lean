import CilAtlas.Metadata.Handle

/-!
# The syntax of signatures

Types and methods as signature blobs spell them.  `Primitive` are the types
that one byte names; `Ty` are all types; `MethodShape` is a calling convention
with its types.
-/

namespace CilAtlas
namespace Signature

/-- The types with an element byte of their own. -/
inductive Primitive where
  | void | boolean | char | sbyte | byte | int16 | uint16 | int32 | uint32 | int64 | uint64
  | single | double | string | typedReference | intPtr | uintPtr | object
deriving DecidableEq

namespace Primitive

/-- The element byte of each primitive type. -/
def code : Primitive → UInt8
  | void => 0x01
  | boolean => 0x02
  | char => 0x03
  | sbyte => 0x04
  | byte => 0x05
  | int16 => 0x06
  | uint16 => 0x07
  | int32 => 0x08
  | uint32 => 0x09
  | int64 => 0x0A
  | uint64 => 0x0B
  | single => 0x0C
  | double => 0x0D
  | string => 0x0E
  | typedReference => 0x16
  | intPtr => 0x18
  | uintPtr => 0x19
  | object => 0x1C

/-- All primitive types. -/
def all : List Primitive :=
  [void, boolean, char, sbyte, byte, int16, uint16, int32, uint32, int64, uint64,
    single, double, string, typedReference, intPtr, uintPtr, object]

/-- The full name of each primitive type. -/
def name : Primitive → Text
  | void => lit "System.Void"
  | boolean => lit "System.Boolean"
  | char => lit "System.Char"
  | sbyte => lit "System.SByte"
  | byte => lit "System.Byte"
  | int16 => lit "System.Int16"
  | uint16 => lit "System.UInt16"
  | int32 => lit "System.Int32"
  | uint32 => lit "System.UInt32"
  | int64 => lit "System.Int64"
  | uint64 => lit "System.UInt64"
  | single => lit "System.Single"
  | double => lit "System.Double"
  | string => lit "System.String"
  | typedReference => lit "System.TypedReference"
  | intPtr => lit "System.IntPtr"
  | uintPtr => lit "System.UIntPtr"
  | object => lit "System.Object"

end Primitive

/-- What the first byte of a type announces. -/
inductive Element where
  | primitive (type : Primitive)
  | pointer
  | byRef
  | valueType
  | classType
  | typeVariable
  | array
  | genericInstance
  | function
  | vector
  | methodVariable
  | requiredModifier
  | optionalModifier
  | pinned
deriving DecidableEq

namespace Element

/-- The byte of each element. -/
def code : Element → UInt8
  | primitive type => type.code
  | pointer => 0x0F
  | byRef => 0x10
  | valueType => 0x11
  | classType => 0x12
  | typeVariable => 0x13
  | array => 0x14
  | genericInstance => 0x15
  | function => 0x1B
  | vector => 0x1D
  | methodVariable => 0x1E
  | requiredModifier => 0x1F
  | optionalModifier => 0x20
  | pinned => 0x45

/-- All elements. -/
def all : List Element :=
  Primitive.all.map primitive ++
    [pointer, byRef, valueType, classType, typeVariable, array, genericInstance, function,
      vector, methodVariable, requiredModifier, optionalModifier, pinned]

/-- The element that a byte announces. -/
def ofByte? (b : UInt8) : Option Element :=
  all.find? fun e => e.code = b

end Element

/-- Whether a named type is a value type or a class. -/
inductive NamedKind where
  | valueType
  | classType
deriving DecidableEq

/-- A type in a signature. -/
inductive Ty where
  | primitive (type : Primitive)
  | named (kind : NamedKind) (type : Handle)
  | vector (element : Ty)
  | pointer (target : Ty)
  | byRef (target : Ty)
  | pinned (type : Ty)
  | typeVariable (index : Nat)
  | methodVariable (index : Nat)
  | genericInstance (kind : NamedKind) (type : Handle) (arguments : List Ty)
  | array (element : Ty) (rank : Nat) (sizes : List Nat) (lowerBounds : List Int)
  | function (header : UInt8) (arity : Nat) (result : Ty) (parameters : List Ty)
  | modified (required : Bool) (modifier : Handle) (type : Ty)

/-- A method's calling convention byte, generic arity and types. -/
structure MethodShape where
  header : UInt8
  arity : Nat
  result : Ty
  parameters : List Ty

end Signature
end CilAtlas
