import CilAtlas.Metadata.Handle

/-!
# The columns of the metadata tables

Which columns the rows of each table have, in order.  A column holds a number,
a place in a heap, or a row of another table: of a fixed one, of one of several
that a tag tells apart, or the first of a run of rows.
-/

namespace CilAtlas
namespace Schema

/-- The tables that a tagged index can refer to, by tag. -/
structure Choice where
  tagBits : Nat
  tables : List (Option Nat)

/-- What a column holds. -/
inductive Column where
  | number (width : Nat)
  | string
  | guid
  | blob
  | row (table : Nat)
  | choice (choice : Choice)
  | run (table : Nat)

/-- A table with its columns. -/
structure Table where
  number : Nat
  name : String
  columns : List (String × Column)

/-- A choice without gaps. -/
def choiceOf (tagBits : Nat) (tables : List Nat) : Column :=
  .choice ⟨tagBits, tables.map some⟩

def typeDefOrRef : Column := choiceOf 2 [0x02, 0x01, 0x1B]
def hasConstant : Column := choiceOf 2 [0x04, 0x08, 0x17]
def hasCustomAttribute : Column := choiceOf 5 [0x06, 0x04, 0x01, 0x02, 0x08, 0x09, 0x0A, 0x00, 0x0E,
  0x17, 0x14, 0x11, 0x1A, 0x1B, 0x20, 0x23, 0x26, 0x27, 0x28, 0x2A, 0x2C, 0x2B]
def hasFieldMarshal : Column := choiceOf 1 [0x04, 0x08]
def hasDeclSecurity : Column := choiceOf 2 [0x02, 0x06, 0x20]
def memberRefParent : Column := choiceOf 3 [0x02, 0x01, 0x1A, 0x06, 0x1B]
def hasSemantics : Column := choiceOf 1 [0x14, 0x17]
def methodDefOrRef : Column := choiceOf 1 [0x06, 0x0A]
def memberForwarded : Column := choiceOf 1 [0x04, 0x06]
def implementation : Column := choiceOf 2 [0x26, 0x23, 0x27]
def customAttributeType : Column := .choice ⟨3, [none, none, some 0x06, some 0x0A]⟩
def resolutionScope : Column := choiceOf 2 [0x00, 0x1A, 0x23, 0x01]
def typeOrMethodDef : Column := choiceOf 1 [0x02, 0x06]

/-- The number of the table of operating systems. -/
def operatingSystems : Nat := 0x22

/-- All tables by number. -/
def tables : List Table := [
  ⟨0x00, "Module", [("Generation", .number 2), ("Name", .string), ("Mvid", .guid),
    ("EncId", .guid), ("EncBaseId", .guid)]⟩,
  ⟨0x01, "TypeRef", [("ResolutionScope", resolutionScope), ("TypeName", .string),
    ("TypeNamespace", .string)]⟩,
  ⟨0x02, "TypeDef", [("Flags", .number 4), ("TypeName", .string), ("TypeNamespace", .string),
    ("Extends", typeDefOrRef), ("FieldList", .run 0x04), ("MethodList", .run 0x06)]⟩,
  ⟨0x03, "FieldPtr", [("Field", .row 0x04)]⟩,
  ⟨0x04, "Field", [("Flags", .number 2), ("Name", .string), ("Signature", .blob)]⟩,
  ⟨0x05, "MethodPtr", [("Method", .row 0x06)]⟩,
  ⟨0x06, "MethodDef", [("Rva", .number 4), ("ImplFlags", .number 2), ("Flags", .number 2),
    ("Name", .string), ("Signature", .blob), ("ParamList", .run 0x08)]⟩,
  ⟨0x07, "ParamPtr", [("Param", .row 0x08)]⟩,
  ⟨0x08, "Param", [("Flags", .number 2), ("Sequence", .number 2), ("Name", .string)]⟩,
  ⟨0x09, "InterfaceImpl", [("Class", .row 0x02), ("Interface", typeDefOrRef)]⟩,
  ⟨0x0A, "MemberRef", [("Class", memberRefParent), ("Name", .string), ("Signature", .blob)]⟩,
  ⟨0x0B, "Constant", [("Type", .number 2), ("Parent", hasConstant), ("Value", .blob)]⟩,
  ⟨0x0C, "CustomAttribute", [("Parent", hasCustomAttribute), ("Type", customAttributeType),
    ("Value", .blob)]⟩,
  ⟨0x0D, "FieldMarshal", [("Parent", hasFieldMarshal), ("NativeType", .blob)]⟩,
  ⟨0x0E, "DeclSecurity", [("Action", .number 2), ("Parent", hasDeclSecurity),
    ("PermissionSet", .blob)]⟩,
  ⟨0x0F, "ClassLayout", [("PackingSize", .number 2), ("ClassSize", .number 4),
    ("Parent", .row 0x02)]⟩,
  ⟨0x10, "FieldLayout", [("Offset", .number 4), ("Field", .row 0x04)]⟩,
  ⟨0x11, "StandAloneSig", [("Signature", .blob)]⟩,
  ⟨0x12, "EventMap", [("Parent", .row 0x02), ("EventList", .run 0x14)]⟩,
  ⟨0x13, "EventPtr", [("Event", .row 0x14)]⟩,
  ⟨0x14, "Event", [("EventFlags", .number 2), ("Name", .string), ("EventType", typeDefOrRef)]⟩,
  ⟨0x15, "PropertyMap", [("Parent", .row 0x02), ("PropertyList", .run 0x17)]⟩,
  ⟨0x16, "PropertyPtr", [("Property", .row 0x17)]⟩,
  ⟨0x17, "Property", [("Flags", .number 2), ("Name", .string), ("Type", .blob)]⟩,
  ⟨0x18, "MethodSemantics", [("Semantics", .number 2), ("Method", .row 0x06),
    ("Association", hasSemantics)]⟩,
  ⟨0x19, "MethodImpl", [("Class", .row 0x02), ("MethodBody", methodDefOrRef),
    ("MethodDeclaration", methodDefOrRef)]⟩,
  ⟨0x1A, "ModuleRef", [("Name", .string)]⟩,
  ⟨0x1B, "TypeSpec", [("Signature", .blob)]⟩,
  ⟨0x1C, "ImplMap", [("MappingFlags", .number 2), ("MemberForwarded", memberForwarded),
    ("ImportName", .string), ("ImportScope", .row 0x1A)]⟩,
  ⟨0x1D, "FieldRva", [("Rva", .number 4), ("Field", .row 0x04)]⟩,
  ⟨0x1E, "EncLog", [("Token", .number 4), ("FuncCode", .number 4)]⟩,
  ⟨0x1F, "EncMap", [("Token", .number 4)]⟩,
  ⟨0x20, "Assembly", [("HashAlgId", .number 4), ("MajorVersion", .number 2),
    ("MinorVersion", .number 2), ("BuildNumber", .number 2), ("RevisionNumber", .number 2),
    ("Flags", .number 4), ("PublicKey", .blob), ("Name", .string), ("Culture", .string)]⟩,
  ⟨0x21, "AssemblyProcessor", [("Processor", .number 4)]⟩,
  ⟨0x22, "AssemblyOS", [("OSPlatformID", .number 4), ("OSMajorVersion", .number 4),
    ("OSMinorVersion", .number 4)]⟩,
  ⟨0x23, "AssemblyRef", [("MajorVersion", .number 2), ("MinorVersion", .number 2),
    ("BuildNumber", .number 2), ("RevisionNumber", .number 2), ("Flags", .number 4),
    ("PublicKey", .blob), ("Name", .string), ("Culture", .string), ("HashValue", .blob)]⟩,
  ⟨0x24, "AssemblyRefProcessor", [("Processor", .number 4), ("AssemblyRef", .row 0x23)]⟩,
  ⟨0x25, "AssemblyRefOS", [("OSPlatformID", .number 4), ("OSMajorVersion", .number 4),
    ("OSMinorVersion", .number 4), ("AssemblyRef", .row 0x23)]⟩,
  ⟨0x26, "File", [("Flags", .number 4), ("Name", .string), ("HashValue", .blob)]⟩,
  ⟨0x27, "ExportedType", [("Flags", .number 4), ("TypeDefId", .number 4), ("TypeName", .string),
    ("TypeNamespace", .string), ("Implementation", implementation)]⟩,
  ⟨0x28, "ManifestResource", [("Offset", .number 4), ("Flags", .number 4), ("Name", .string),
    ("Implementation", implementation)]⟩,
  ⟨0x29, "NestedClass", [("NestedClass", .row 0x02), ("EnclosingClass", .row 0x02)]⟩,
  ⟨0x2A, "GenericParam", [("Number", .number 2), ("Flags", .number 2),
    ("Owner", typeOrMethodDef), ("Name", .string)]⟩,
  ⟨0x2B, "MethodSpec", [("Method", methodDefOrRef), ("Instantiation", .blob)]⟩,
  ⟨0x2C, "GenericParamConstraint", [("Owner", .row 0x2A), ("Constraint", typeDefOrRef)]⟩]

end Schema
end CilAtlas
