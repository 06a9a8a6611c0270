import CilAtlas.Identity.Entity
import CilAtlas.Metadata.Store
import CilAtlas.Signature.Text

/-!
# Full names of types

The dotted name of a type inside texts of signatures, the types around a nested
type in front of it.  A type given by a signature has the text of that
signature.  Types can refer to each other in circles, so names are followed
down to a fixed depth; what lies deeper, or has no row, is named by its table.
-/

namespace CilAtlas
namespace Store

/-- The name of a type, following at most `depth` references. -/
def fullNameUpTo (store : Store) : (depth : Nat) → Handle → Text
  | 0, handle => handle.tableName
  | depth + 1, handle =>
    if handle.table = TableNumber.typeDef then
      match store.typeDefs.get? handle with
      | none => handle.tableName
      | some row =>
        match row.declaringType? with
        | some outer =>
          if store.typeDefs.contains outer then
            store.fullNameUpTo depth outer ++ lit "." ++ row.name
          else Entity.qualified row.nameSpace row.name
        | none => Entity.qualified row.nameSpace row.name
    else if handle.table = TableNumber.typeRef then
      match store.typeRefs.get? handle with
      | none => handle.tableName
      | some row =>
        match row.resolutionScope? with
        | some outer =>
          if outer.table = TableNumber.typeRef ∧ store.typeRefs.contains outer then
            store.fullNameUpTo depth outer ++ lit "." ++ row.name
          else Entity.qualified row.nameSpace row.name
        | none => Entity.qualified row.nameSpace row.name
    else if handle.table = TableNumber.typeSpec then
      match store.typeSpecs.get? handle with
      | none => handle.tableName
      | some row =>
        let names : Signature.Naming := ⟨store.fullNameUpTo depth, [], []⟩
        match names.decodeType row.signature with
        | .ok text => text
        | .error _ => handle.tableName
    else handle.tableName

/-- The full name of a type. -/
def fullName (store : Store) (handle : Handle) : Text :=
  store.fullNameUpTo (Entity.maxNesting + 1) handle

/-- Names for signatures, with the given names for the variables. -/
def naming (store : Store) (typeParameters methodParameters : List Text) : Signature.Naming :=
  ⟨store.fullName, typeParameters, methodParameters⟩

/-- The generic parameters of a method's owner, if it is a type of the store. -/
def ownerParameters (store : Store) (method : MethodDef) : List Text :=
  match store.typeDefs.get? method.owner with
  | some owner => owner.genericParameters
  | none => []

/-- Names for the signature of a method of the store. -/
def methodNaming (store : Store) (method : MethodDef) : Signature.Naming :=
  store.naming (store.ownerParameters method) method.genericParameters

/-- The written signature of a method of the store. -/
def methodText (store : Store) (method : MethodDef) :
    Except SignatureFault Signature.MethodText :=
  (store.methodNaming method).decodeMethod method.signature

end Store
end CilAtlas
