import CilAtlas.Digest.Sha256
import CilAtlas.Metadata.Handle

/-!
# Entities and their keys

Plain names collide: methods are overloaded, types differ only in their number
of parameters, and nested types share their namespace.  The key of an entity
therefore ends with the token of its row.  An entity carries just what its key
needs.
-/

namespace CilAtlas

/-- One level of a nested type. -/
structure TypeLevel where
  name : Text
  nameSpace : Text
  arity : Int
  token : Int
deriving DecidableEq

/-- A defined type with the types around it, the nearest first. -/
structure TypeDefinition where
  self : TypeLevel
  enclosing : List TypeLevel
deriving DecidableEq

/-- A method as a call site sees it. -/
structure ResolvedMethod where
  declaringType : Text
  name : Text
  arity : Int
  parameters : List Text
  accessibility : Text
  isStatic : Bool
  isAbstract : Bool
  isVirtual : Bool
  token : Int
deriving DecidableEq

/-- Something that has an identity key. -/
inductive Entity where
  /-- A parent that is known by a word only. -/
  | label (text : Text)
  | typeDefinition (type : TypeDefinition)
  | typeReference (nameSpace name : Text) (token : Int)
  | exportedType (nameSpace name : Text) (token : Int)
  | typeSpecification (text : Text) (token : Int)
  | methodDefinition (owner : Entity) (name : Text) (arity : Int) (parameters : List Text)
      (attributes : Text) (token : Int)
  | memberReference (parent : Entity) (name : Text) (signature : List UInt8) (token : Int)
  | resolvedMethod (method : ResolvedMethod)

/-- Something that has none, by the name of its kind. -/
structure NoIdentity where
  kind : Text
deriving DecidableEq

/-- The wording for something without identity. -/
def NoIdentity.message (e : NoIdentity) : Text :=
  lit "No identity rule for " ++ e.kind

namespace Entity

/-- Chains of declaring types are followed no further than this. -/
def maxNesting : Nat := 64

/-- The name without the mark of special names. -/
def stripMark : Text → Text
  | [] => []
  | c :: rest => if c = CodePoint.ofChar '.' then rest else c :: rest

/-- A name inside a namespace, or alone. -/
def qualified (nameSpace name : Text) : Text :=
  if nameSpace.isEmpty then name else nameSpace ++ lit "." ++ name

/-- The token at the end of every key. -/
def tokenSuffix (token : Int) : Text :=
  lit "|" ++ Handle.tokenText token

/-- Eight digits that stand for a signature. -/
def signatureMark (signature : List UInt8) : Text :=
  ((Sha256.digest signature).take 4).flatMap Text.hexByte

/-- The parameters between parentheses. -/
def parameterList (parameters : List Text) : Text :=
  lit "(" ++ Text.join (lit ",") parameters ++ lit ")"

end Entity

namespace TypeDefinition

/-- The levels that the key looks at, innermost first. -/
def levels (type : TypeDefinition) : List TypeLevel :=
  (type.self :: type.enclosing).take Entity.maxNesting

/-- The outermost of them. -/
def outermost (type : TypeDefinition) : TypeLevel :=
  type.levels.getLastD type.self

/-- The names of the levels, outermost first, inside the outermost namespace. -/
def nestedName (type : TypeDefinition) : Text :=
  Entity.qualified type.outermost.nameSpace
    (Text.join (lit "+") (type.levels.map (·.name)).reverse)

/-- The key of a defined type. -/
def key (type : TypeDefinition) : Text :=
  type.nestedName ++ lit "`" ++ Text.ofInt type.self.arity ++ Entity.tokenSuffix type.self.token

end TypeDefinition

namespace ResolvedMethod

/-- The accessibility and the modifiers that hold. -/
def attributes (method : ResolvedMethod) : Text :=
  method.accessibility
    ++ (if method.isStatic then lit "|static" else [])
    ++ (if method.isAbstract then lit "|abstract" else [])
    ++ (if method.isVirtual then lit "|virtual" else [])

/-- The key of a method seen from a call. -/
def key (method : ResolvedMethod) : Text :=
  method.declaringType ++ lit "." ++ method.name ++ lit "`" ++ Text.ofInt method.arity
    ++ Entity.parameterList method.parameters ++ lit "|" ++ method.attributes
    ++ Entity.tokenSuffix method.token

end ResolvedMethod

/-- The identity key of an entity. -/
def Entity.key : Entity → Text
  | label text => text
  | typeDefinition type => type.key
  | typeReference nameSpace name token => qualified nameSpace name ++ tokenSuffix token
  | exportedType nameSpace name token => qualified nameSpace name ++ tokenSuffix token
  | typeSpecification text token => text ++ tokenSuffix token
  | methodDefinition owner name arity parameters attributes token =>
    owner.key ++ lit "." ++ stripMark name ++ lit "`" ++ Text.ofInt arity
      ++ parameterList parameters ++ lit "|" ++ attributes ++ tokenSuffix token
  | memberReference parent name signature token =>
    let mark := if signature.isEmpty then [] else lit "|sig:0x" ++ signatureMark signature
    parent.key ++ lit "." ++ stripMark name ++ mark ++ tokenSuffix token
  | resolvedMethod method => method.key

end CilAtlas
