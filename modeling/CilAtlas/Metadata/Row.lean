import CilAtlas.Metadata.Handle

/-!
# Rows of the metadata tables

The rows that the analysis looks at, each with its own handle.
-/

namespace CilAtlas

/-- The flags of a row.  A row may give a truth value instead of a number; it stands
for one or zero. -/
inductive RowFlags where
  | bits (value : Int)
  | truth (value : Bool)
deriving DecidableEq

/-- The number whose bits the flags are. -/
def RowFlags.value : RowFlags → Int
  | bits value => value
  | truth value => if value then 1 else 0

/-- A type defined in the assembly. -/
structure TypeDef where
  handle : Handle
  nameSpace : Text
  name : Text
  flags : RowFlags
  extends? : Option Handle
  declaringType? : Option Handle
  methods : List Handle
  genericParameters : List Text
deriving DecidableEq

/-- Whether the type is an interface. -/
def TypeDef.isInterface (row : TypeDef) : Bool :=
  Bits.test 5 row.flags.value

/-- A type of another assembly. -/
structure TypeRef where
  handle : Handle
  nameSpace : Text
  name : Text
  resolutionScope? : Option Handle
deriving DecidableEq

/-- A type that the assembly passes on. -/
structure ExportedType where
  handle : Handle
  nameSpace : Text
  name : Text
deriving DecidableEq

/-- A parameter; the first one has sequence 1, and 0 is the result. -/
structure Param where
  sequence : Int
  name : Text
deriving DecidableEq

/-- A method defined in the assembly. -/
structure MethodDef where
  handle : Handle
  name : Text
  owner : Handle
  flags : RowFlags
  implFlags : RowFlags
  rva : Int
  signature : List UInt8
  params : List Param
  genericParameters : List Text
  compilerGenerated : Bool
deriving DecidableEq

namespace MethodDef

/-- Bits 0 to 2 of the flags: who may call the method. -/
def access (row : MethodDef) : Nat :=
  Bits.low 3 row.flags.value

def isStatic (row : MethodDef) : Bool :=
  Bits.test 4 row.flags.value

def isVirtual (row : MethodDef) : Bool :=
  Bits.test 6 row.flags.value

def isAbstract (row : MethodDef) : Bool :=
  Bits.test 10 row.flags.value

def isPlatformInvoke (row : MethodDef) : Bool :=
  Bits.test 13 row.flags.value

/-- Whether the method has instructions: it has an address, is implemented here,
and in instructions. -/
def hasBody (row : MethodDef) : Bool :=
  row.rva ≠ 0 && !row.isAbstract && !row.isPlatformInvoke
    && !Bits.test 12 row.implFlags.value && Bits.low 2 row.implFlags.value = 0

end MethodDef

/-- A member reached through another row. -/
structure MemberRef where
  handle : Handle
  parent? : Option Handle
  name : Text
  signature : List UInt8
deriving DecidableEq

/-- A generic method with its arguments. -/
structure MethodSpec where
  handle : Handle
  method? : Option Handle
  instantiation : List UInt8
deriving DecidableEq

/-- A type given by a signature. -/
structure TypeSpec where
  handle : Handle
  signature : List UInt8
deriving DecidableEq

/-- What the file's headers say. -/
structure HeaderFacts where
  fileSize : Int
  imageBase : Int
  entryPointRva : Int
  sectionAlignment : Int
  fileAlignment : Int
deriving DecidableEq

end CilAtlas
