import CilAtlas.Signature.Reader

/-!
# The text of a signature

Types are written by their full names, with the usual marks for arrays,
pointers, references and arguments.  How a handle is named, and what the type
and method variables are called, comes from outside as a `Naming`.
-/

namespace CilAtlas
namespace Signature

/-- Names for what a signature refers to. -/
structure Naming where
  typeName : Handle → Text
  typeParameters : List Text
  methodParameters : List Text

/-- The name at an index when there is one, else the mark with the index. -/
def variableText (names : List Text) (index : Nat) (mark : Text) : Text :=
  match names[index]? with
  | some (c :: name) => c :: name
  | _ => mark ++ Text.ofNat index

/-- Texts with commas between them. -/
def commaList (parts : List Text) : Text :=
  Text.join (lit ",") parts

mutual

/-- The text of a type. -/
def Ty.text (names : Naming) : Ty → Text
  | .primitive type => type.name
  | .named _ type => names.typeName type
  | .vector element => element.text names ++ lit "[]"
  | .pointer target => target.text names ++ lit "*"
  | .byRef target => target.text names ++ lit "&"
  | .pinned type => type.text names
  | .typeVariable index => variableText names.typeParameters index (lit "!")
  | .methodVariable index => variableText names.methodParameters index (lit "!!")
  | .genericInstance _ type arguments =>
    names.typeName type ++ lit "<" ++ commaList (textList names arguments) ++ lit ">"
  | .array element rank _ _ =>
    element.text names ++ lit "[" ++ List.replicate (rank - 1) (CodePoint.ofChar ',') ++ lit "]"
  | .function _ _ result parameters =>
    lit "method " ++ result.text names ++ lit " *(" ++
      commaList (textList names parameters) ++ lit ")"
  | .modified _ _ type => type.text names

/-- The texts of several types. -/
def textList (names : Naming) : List Ty → List Text
  | [] => []
  | type :: rest => type.text names :: textList names rest

end

/-- A method signature with its types written out. -/
structure MethodText where
  header : UInt8
  arity : Nat
  result : Text
  parameters : List Text
deriving DecidableEq

namespace MethodText

/-- Whether an instance is passed. -/
def hasThis (m : MethodText) : Bool :=
  m.header &&& 0x20 ≠ 0

/-- Whether further arguments may follow the parameters. -/
def isVarArg (m : MethodText) : Bool :=
  m.header &&& 0x0F = 0x05

end MethodText

/-- A method signature with its types written out. -/
def MethodShape.text (names : Naming) (shape : MethodShape) : MethodText where
  header := shape.header
  arity := shape.arity
  result := shape.result.text names
  parameters := textList names shape.parameters

namespace Naming

/-- The text of a type blob. -/
def decodeType (names : Naming) (blob : List UInt8) : Except SignatureFault Text :=
  (readType.run blob).map (·.text names)

/-- The text of a field blob. -/
def decodeField (names : Naming) (blob : List UInt8) : Except SignatureFault Text :=
  (readFieldSignature.run blob).map (·.text names)

/-- The text of a method blob. -/
def decodeMethod (names : Naming) (blob : List UInt8) : Except SignatureFault MethodText :=
  (readMethodSignature.run blob).map (·.text names)

/-- The generic type of an instance and the texts of its arguments. -/
def decodeTypeInstance (names : Naming) (blob : List UInt8) :
    Except SignatureFault (Handle × List Text) :=
  (readTypeInstance.run blob).map fun found => (found.1, textList names found.2)

/-- The texts of a method instance's arguments. -/
def decodeMethodInstance (names : Naming) (blob : List UInt8) :
    Except SignatureFault (List Text) :=
  (readMethodInstance.run blob).map (textList names)

end Naming
end Signature
end CilAtlas
