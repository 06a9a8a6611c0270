import CilAtlas.Identity.Entity
import CilAtlas.Metadata.Document

/-!
# Entities as documents

All fields of an entity, with its kind in front.
-/

namespace CilAtlas

/-- A defined type inside the types around it, the nearest first. -/
def TypeLevel.document : List TypeLevel → Json
  | [] => .null
  | level :: enclosing =>
    .record [
      ("kind", .text (lit "TypeDefinition")),
      ("name", .text level.name),
      ("namespace", .text level.nameSpace),
      ("generic_arity", .int level.arity),
      ("token", .int level.token),
      ("declaring_type", document enclosing)]

/-- A method as a call site sees it, as a document. -/
def ResolvedMethod.document (method : ResolvedMethod) : Json :=
  .record [
    ("kind", .text (lit "ResolvedMethodInfo")),
    ("declaring_type", .text method.declaringType),
    ("name", .text method.name),
    ("generic_arity", .int method.arity),
    ("parameter_types", .texts method.parameters),
    ("accessibility", .text method.accessibility),
    ("is_static", .bool method.isStatic),
    ("is_abstract", .bool method.isAbstract),
    ("is_virtual", .bool method.isVirtual),
    ("token", .int method.token)]

/-- An entity as a document; a mere word is a text. -/
def Entity.document : Entity → Json
  | label text => .text text
  | typeDefinition type => TypeLevel.document (type.self :: type.enclosing)
  | typeReference nameSpace name token =>
    .record [
      ("kind", .text (lit "TypeReference")),
      ("namespace", .text nameSpace),
      ("name", .text name),
      ("token", .int token)]
  | exportedType nameSpace name token =>
    .record [
      ("kind", .text (lit "ExportedType")),
      ("namespace", .text nameSpace),
      ("name", .text name),
      ("token", .int token)]
  | typeSpecification text token =>
    .record [
      ("kind", .text (lit "TypeSpecification")),
      ("text", .text text),
      ("token", .int token)]
  | methodDefinition owner name arity parameters attributes token =>
    .record [
      ("kind", .text (lit "MethodDefinition")),
      ("owner", owner.document),
      ("name", .text name),
      ("generic_arity", .int arity),
      ("parameter_types", .texts parameters),
      ("attributes", .text attributes),
      ("token", .int token)]
  | memberReference parent name signature token =>
    .record [
      ("kind", .text (lit "MemberReference")),
      ("parent", parent.document),
      ("name", .text name),
      ("signature", .bytes signature),
      ("token", .int token)]
  | resolvedMethod method => method.document

end CilAtlas
