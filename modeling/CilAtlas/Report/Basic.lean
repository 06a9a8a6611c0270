import CilAtlas.Calls.Table
import CilAtlas.Json.Basic

/-!
# Reports

What an analysis finds out about an assembly, and the document that holds it.
-/

namespace CilAtlas

/-- A parameter of a reported method. -/
structure ReportParameter where
  name : Text
  type : Text
deriving DecidableEq

/-- A reported method.  The handle is not part of the document. -/
structure ReportedMethod where
  handle : Handle
  name : Text
  rva : Int
  size : Int
  parameters : List ReportParameter
  returnType : Text
  stringLiterals : List Text
  ilBytes : Text
  source : Text
  calls : List CallRecord
deriving DecidableEq

/-- A reported type with its methods. -/
structure ReportedType where
  name : Text
  kind : Text
  methods : List ReportedMethod
deriving DecidableEq

/-- A reported assembly. -/
structure Report where
  assembly : Text
  facts : HeaderFacts
  types : List ReportedType
  importedMethods : List Text
  importedTypes : List Text
  exportedTypes : List Text
deriving DecidableEq

namespace Report

/-- The methods of all types, in order. -/
def methods (report : Report) : List ReportedMethod :=
  report.types.flatMap (·.methods)

end Report

/-- An object of the given fields. -/
def Json.record (fields : List (String × Json)) : Json :=
  .object (fields.map fun field => (lit field.1, field.2))

/-- The headers' facts as a document. -/
def HeaderFacts.document (facts : HeaderFacts) : Json :=
  .record [
    ("file_size", .int facts.fileSize),
    ("image_base", .int facts.imageBase),
    ("entry_point_rva", .int facts.entryPointRva),
    ("section_alignment", .int facts.sectionAlignment),
    ("file_alignment", .int facts.fileAlignment)]

/-- A call as a document. -/
def CallRecord.document (call : CallRecord) : Json :=
  .record [("name", .text call.name), ("address", .int call.address)]

/-- A parameter as a document. -/
def ReportParameter.document (parameter : ReportParameter) : Json :=
  .record [("name", .text parameter.name), ("type", .text parameter.type)]

/-- A method as a document. -/
def ReportedMethod.document (method : ReportedMethod) : Json :=
  .record [
    ("name", .text method.name),
    ("rva", .int method.rva),
    ("size", .int method.size),
    ("parameters", .list (method.parameters.map (·.document))),
    ("return_type", .text method.returnType),
    ("string_literals", .list (method.stringLiterals.map .text)),
    ("il_bytes", .text method.ilBytes),
    ("decompiled_source", .text method.source),
    ("called_methods", .list (method.calls.map (·.document)))]

/-- A type as a document. -/
def ReportedType.document (type : ReportedType) : Json :=
  .record [
    ("name", .text type.name),
    ("kind", .text type.kind),
    ("methods", .list (type.methods.map (·.document)))]

/-- An imported or exported name as a document. -/
def importDocument (fullName : Text) : Json :=
  .record [("full_name", .text fullName)]

/-- The whole report as a document. -/
def Report.document (report : Report) : Json :=
  .record [
    ("assembly", .text report.assembly),
    ("pe_information", report.facts.document),
    ("types", .list (report.types.map (·.document))),
    ("imported_functions", .list (report.importedMethods.map importDocument)),
    ("imported_types", .list (report.importedTypes.map importDocument)),
    ("exported_types", .list (report.exportedTypes.map importDocument))]

end CilAtlas
