import CilAtlas.Digest.Sha256
import CilAtlas.Metadata.Store
import CilAtlas.Report.Basic

/-!
# Stores as documents

All rows of a store, field by field.  The image shows by its size and digest
only.
-/

namespace CilAtlas

/-- A handle as table and row number. -/
def Handle.document (handle : Handle) : Json :=
  .list [.int handle.table, .int handle.rid]

/-- A handle that may be absent. -/
def Handle.optional : Option Handle → Json
  | some handle => handle.document
  | none => .null

/-- Texts as a list. -/
def Json.texts (items : List Text) : Json :=
  .list (items.map .text)

/-- Bytes in hexadecimal. -/
def Json.bytes (bytes : List UInt8) : Json :=
  .text (Text.hexBytesLower bytes)

/-- Flags as they are given. -/
def RowFlags.document : RowFlags → Json
  | bits value => .int value
  | truth value => .bool value

/-- A type as a document. -/
def TypeDef.document (row : TypeDef) : Json :=
  .record [
    ("handle", row.handle.document),
    ("namespace", .text row.nameSpace),
    ("name", .text row.name),
    ("flags", row.flags.document),
    ("extends", Handle.optional row.extends?),
    ("declaring_type", Handle.optional row.declaringType?),
    ("methods", .list (row.methods.map Handle.document)),
    ("generic_parameters", .texts row.genericParameters)]

/-- A type of another assembly as a document. -/
def TypeRef.document (row : TypeRef) : Json :=
  .record [
    ("handle", row.handle.document),
    ("namespace", .text row.nameSpace),
    ("name", .text row.name),
    ("resolution_scope", Handle.optional row.resolutionScope?)]

/-- A type that is passed on as a document. -/
def ExportedType.document (row : ExportedType) : Json :=
  .record [
    ("handle", row.handle.document),
    ("namespace", .text row.nameSpace),
    ("name", .text row.name)]

/-- A parameter as a document. -/
def Param.document (param : Param) : Json :=
  .record [("sequence", .int param.sequence), ("name", .text param.name)]

/-- A method as a document. -/
def MethodDef.document (row : MethodDef) : Json :=
  .record [
    ("handle", row.handle.document),
    ("name", .text row.name),
    ("owner", row.owner.document),
    ("flags", row.flags.document),
    ("impl_flags", row.implFlags.document),
    ("rva", .int row.rva),
    ("signature", .bytes row.signature),
    ("params", .list (row.params.map Param.document)),
    ("generic_parameters", .texts row.genericParameters),
    ("compiler_generated", .bool row.compilerGenerated)]

/-- A member reached through another row as a document. -/
def MemberRef.document (row : MemberRef) : Json :=
  .record [
    ("handle", row.handle.document),
    ("parent", Handle.optional row.parent?),
    ("name", .text row.name),
    ("signature", .bytes row.signature)]

/-- A generic method with its arguments as a document. -/
def MethodSpec.document (row : MethodSpec) : Json :=
  .record [
    ("handle", row.handle.document),
    ("method", Handle.optional row.method?),
    ("instantiation", .bytes row.instantiation)]

/-- A type given by a signature as a document. -/
def TypeSpec.document (row : TypeSpec) : Json :=
  .record [("handle", row.handle.document), ("signature", .bytes row.signature)]

/-- An image as a document. -/
def Image.document (image : Image) : Json :=
  .record [
    ("size", .int image.size),
    ("sha256", .bytes (Sha256.digest image.bytes.toList))]

/-- A store as a document. -/
def Store.document (store : Store) : Json :=
  .record [
    ("type_defs", .list (store.typeDefs.values.map TypeDef.document)),
    ("type_refs", .list (store.typeRefs.values.map TypeRef.document)),
    ("exported_types", .list (store.exportedTypes.values.map ExportedType.document)),
    ("method_defs", .list (store.methodDefs.values.map MethodDef.document)),
    ("member_refs", .list (store.memberRefs.values.map MemberRef.document)),
    ("method_specs", .list (store.methodSpecs.values.map MethodSpec.document)),
    ("type_specs", .list (store.typeSpecs.values.map TypeSpec.document)),
    ("image", store.image.document),
    ("pe_facts", store.facts.document)]

end CilAtlas
