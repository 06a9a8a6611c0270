import CilAtlas.Body.Decode
import CilAtlas.Json.Basic
import CilAtlas.Metadata.Row
import CilAtlas.OrderedMap

/-!
# The metadata store

The rows of one assembly by handle, in table order, with its image and its user
strings.
-/

namespace CilAtlas

/-- Why a row is not found. -/
inductive LookupError where
  | noTypeDef (handle : Handle)
  | noMethodDef (handle : Handle)
  | noRow (handle : Handle)
  | noRule (kind : Text)
deriving DecidableEq

namespace LookupError

/-- The wording of each error. -/
def message : LookupError → Text
  | noTypeDef handle => lit "No TypeDef row for " ++ handle.text
  | noMethodDef handle => lit "No MethodDef row for " ++ handle.text
  | noRow handle => handle.text
  | noRule kind => lit "No identity rule for " ++ kind ++ lit " rows"

end LookupError

/-- Why a user string cannot be had. -/
inductive UserStringFault where
  /-- The heap holds a list of texts there. -/
  | pieces (values : List Text)
  /-- The heap holds something else there. -/
  | notText (found : Json)
  /-- The heap itself failed, in the way named. -/
  | refused (reason : Text)

/-- The rows, image and user strings of one assembly. -/
structure Store where
  typeDefs : OrderedMap Handle TypeDef
  typeRefs : OrderedMap Handle TypeRef
  exportedTypes : OrderedMap Handle ExportedType
  methodDefs : OrderedMap Handle MethodDef
  memberRefs : OrderedMap Handle MemberRef
  methodSpecs : OrderedMap Handle MethodSpec
  typeSpecs : OrderedMap Handle TypeSpec
  image : Image
  userStrings : Int → Except UserStringFault (Option Text)
  facts : HeaderFacts

namespace Store

/-- The type with the given handle. -/
def typeDef (store : Store) (handle : Handle) : Except LookupError TypeDef :=
  match store.typeDefs.get? handle with
  | some row => .ok row
  | none => .error (.noTypeDef handle)

/-- The method with the given handle. -/
def methodDef (store : Store) (handle : Handle) : Except LookupError MethodDef :=
  match store.methodDefs.get? handle with
  | some row => .ok row
  | none => .error (.noMethodDef handle)

/-- The methods that a type lists and the store has, in the type's order. -/
def methodsOf (store : Store) (type : TypeDef) : List MethodDef :=
  type.methods.filterMap store.methodDefs.get?

/-- The bytes of a range that lies in the image. -/
def imageRange (store : Store) (rva size : Int) : Except RangeError (List UInt8) :=
  store.image.range rva size

end Store

/-- Why a method has no decoded body. -/
inductive BodyUnavailable where
  /-- The method has no instructions. -/
  | noBody (name : Text)
  | malformed (fault : BodyFault)
deriving DecidableEq

/-- The wording of each reason. -/
def BodyUnavailable.message : BodyUnavailable → Text
  | noBody name => name ++ lit " has no IL body"
  | malformed fault => fault.message

namespace Store

/-- The decoded body of a method. -/
def readBody (store : Store) (method : MethodDef) : Except BodyUnavailable Body :=
  if method.hasBody then
    match Body.decode store.image method.rva none with
    | .ok body => .ok body
    | .error fault => .error (.malformed fault)
  else .error (.noBody method.name)

/-- The decoded body of a method, when there is one. -/
def readBody? (store : Store) (method : MethodDef) : Option Body :=
  (store.readBody method).toOption

/-- The bytes of a body's instructions. -/
def codeBytes (store : Store) (method : MethodDef) (body : Body) :
    Except RangeError (List UInt8) :=
  store.imageRange (method.rva + body.headerSize) body.codeSize

end Store
end CilAtlas
