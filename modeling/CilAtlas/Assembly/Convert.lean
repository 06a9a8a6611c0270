import CilAtlas.Assembly.UserStrings

/-!
# From tables to a store

The rows of the tables become rows of a store, each under the handle of its
table and its place in it.  A method is kept when some type lists it, and the
last type that lists it is its owner.
-/

namespace CilAtlas

/-- An assembly as a reader of files hands it over. -/
structure RawAssembly where
  /-- The header with addresses and alignments; null when there is none. -/
  header : Cell
  /-- The tables by name; null when there is no metadata. -/
  tables : Cell
  userStrings? : Option UserStringHeap
  image : Image

/-- Why an assembly has no store. -/
inductive ConversionError where
  | noHeader
  | noMetadata
  | malformed (fault : CellFault)
deriving DecidableEq

namespace RawAssembly

/-- What the header says. -/
def facts (raw : RawAssembly) (fileSize : Int) : Except ConversionError HeaderFacts := do
  let number (name : String) : Except ConversionError Int :=
    (do (← raw.header.field name).toInt : Except CellFault Int).mapError .malformed
  match raw.header with
  | .null => throw .noHeader
  | _ =>
    let imageBase ← number "ImageBase"
    let entryPointRva ← number "AddressOfEntryPoint"
    let sectionAlignment ← number "SectionAlignment"
    let fileAlignment ← number "FileAlignment"
    return ⟨fileSize, imageBase, entryPointRva, sectionAlignment, fileAlignment⟩

end RawAssembly

namespace Conversion

/-- The rows of a table, each with its handle. -/
def numbered (table : TableNumber) (rows : List Cell) : List (Handle × Cell) :=
  rows.mapIdx fun i row => (⟨table, i + 1⟩, row)

/-- The rows of the table with the given name. -/
def rows (tables : Cell) (name : String) : Except CellFault (List Cell) :=
  (tables.fieldOrNull name).toList

/-- The rows of a table, each converted under its handle. -/
def converted {α : Type} (table : TableNumber) (name : String)
    (convert : Handle → Cell → Except CellFault α) (tables : Cell) :
    Except CellFault (List α) := do
  (numbered table (← rows tables name)).mapM fun (handle, row) => convert handle row

/-- A generic parameter with the row that declares it. -/
structure GenericParam where
  owner : Handle
  number : Int
  name : Text

/-- The order of generic parameters: by number, then by name. -/
def GenericParam.le (a b : GenericParam) : Bool :=
  if a.number = b.number then Text.le a.name b.name else a.number < b.number

/-- The generic parameters that have an owner. -/
def genericParams (tables : Cell) : Except CellFault (List GenericParam) := do
  let params ← (← rows tables "GenericParam").mapM fun row => do
    match ← (row.fieldOrNull "Owner").toHandle? with
    | none => return none
    | some owner =>
      let number ← ((row.field? "Number").getD (.int 0)).toInt
      return some (⟨owner, number, (← row.field "Name").toText⟩ : GenericParam)
  return params.filterMap id

/-- The names of an owner's generic parameters in order. -/
def genericNames (params : List GenericParam) (owner : Handle) : List Text :=
  ((params.filter (·.owner = owner)).mergeSort GenericParam.le).map (·.name)

/-- The nested types, each with the type that encloses it. -/
def nesting (tables : Cell) : Except CellFault (List (Handle × Handle)) := do
  let pairs ← (← rows tables "NestedClass").mapM fun row => do
    let nested? ← (← row.field "NestedClass").toHandle?
    let enclosing? ← (← row.field "EnclosingClass").toHandle?
    return do return (← nested?, ← enclosing?)
  return pairs.filterMap id

/-- The enclosing type of a type; the last row about it counts. -/
def enclosingType? (nesting : List (Handle × Handle)) (type : Handle) : Option Handle :=
  (nesting.reverse.find? (·.1 = type)).map (·.2)

/-- A reference to a type of another assembly. -/
def typeRef (handle : Handle) (row : Cell) : Except CellFault TypeRef := do
  let nameSpace := (← row.field "TypeNamespace").toText
  let name := (← row.field "TypeName").toText
  return ⟨handle, nameSpace, name, ← (row.fieldOrNull "ResolutionScope").toHandle?⟩

/-- The references to types of other assemblies. -/
def typeRefs (tables : Cell) : Except CellFault (List TypeRef) :=
  converted TableNumber.typeRef "TypeRef" typeRef tables

/-- A type's name and methods, before the rest of its row is read. -/
structure TypeOutline where
  handle : Handle
  row : Cell
  nameSpace : Text
  name : Text
  methods : List Handle

/-- The row number in an index. -/
def rowIndex (index : Cell) : Cell :=
  (index.field? "row_index").getD (.int 0)

/-- The method that an index names; row zero names none. -/
def listedMethod? (index : Cell) : Except CellFault (Option Handle) :=
  if (rowIndex index).isPresent then
    (rowIndex index).toInt.map fun rid => some ⟨TableNumber.methodDef, rid⟩
  else .ok none

/-- The methods that a row lists. -/
def listedMethods (row : Cell) : Except CellFault (List Handle) := do
  let indices ← (row.fieldOrNull "MethodList").toRun
  let handles ← indices.mapM listedMethod?
  return handles.filterMap id

/-- The name and methods of a type. -/
def typeOutline (handle : Handle) (row : Cell) : Except CellFault TypeOutline := do
  let methods ← listedMethods row
  let nameSpace := (← row.field "TypeNamespace").toText
  let name := (← row.field "TypeName").toText
  return ⟨handle, row, nameSpace, name, methods⟩

/-- The names and methods of all types. -/
def typeOutlines (tables : Cell) : Except CellFault (List TypeOutline) :=
  converted TableNumber.typeDef "TypeDef" typeOutline tables

/-- The last type that lists a method. -/
def owner? (types : List TypeOutline) (method : Handle) : Option TypeOutline :=
  types.reverse.find? fun type => type.methods.contains method

/-- A member reached through another row. -/
def memberRef (handle : Handle) (row : Cell) : Except CellFault MemberRef := do
  let parent? ← (row.fieldOrNull "Class").toHandle?
  let name := (← row.field "Name").toText
  return ⟨handle, parent?, name, (← row.field "Signature").toBytes⟩

/-- The members reached through other rows. -/
def memberRefs (tables : Cell) : Except CellFault (List MemberRef) :=
  converted TableNumber.memberRef "MemberRef" memberRef tables

/-- Namespace and name of the attribute that marks what a compiler added. -/
def compilerMark : Text × Text :=
  (lit "System.Runtime.CompilerServices", lit "CompilerGeneratedAttribute")

/-- Namespace and name of the type that a constructor belongs to. -/
def attributeType? (typeRefs : List TypeRef) (memberRefs : List MemberRef)
    (types : List TypeOutline) (constructor : Handle) : Option (Text × Text) := do
  if constructor.table = TableNumber.memberRef then
    let member ← memberRefs.find? (·.handle = constructor)
    let parent ← member.parent?
    let ref ← typeRefs.find? (·.handle = parent)
    return (ref.nameSpace, ref.name)
  else if constructor.table = TableNumber.methodDef then
    let type ← owner? types constructor
    return (type.nameSpace, type.name)
  else none

/-- What carries the mark of a compiler. -/
def marked (tables : Cell) (typeRefs : List TypeRef) (memberRefs : List MemberRef)
    (types : List TypeOutline) : Except CellFault (List Handle) := do
  let parents ← (← rows tables "CustomAttribute").mapM fun row => do
    let parent? ← (← row.field "Parent").toHandle?
    let constructor? ← (← row.field "Type").toHandle?
    return do
      let parent ← parent?
      let constructor ← constructor?
      if attributeType? typeRefs memberRefs types constructor = some compilerMark then some parent
      else none
  return parents.filterMap id

/-- The row of a type. -/
def typeDef (generics : List GenericParam) (nesting : List (Handle × Handle))
    (type : TypeOutline) : Except CellFault TypeDef := do
  return {
    handle := type.handle
    nameSpace := type.nameSpace
    name := type.name
    flags := type.row.flags "Flags"
    extends? := ← (type.row.fieldOrNull "Extends").toHandle?
    declaringType? := enclosingType? nesting type.handle
    methods := type.methods
    genericParameters := genericNames generics type.handle }

/-- The parameters that a row lists. -/
def listedParams (row : Cell) : Except CellFault (List Param) := do
  let indices ← (row.fieldOrNull "ParamList").toRun
  let params ← indices.mapM fun index => do
    match index.fieldOrNull "row" with
    | .null => return none
    | param =>
      let sequence ← ((param.field? "Sequence").getD (.int 0)).toInt
      return some (⟨sequence, (← param.field "Name").toText⟩ : Param)
  return params.filterMap id

/-- The address of a method, zero when the row has none. -/
def address (row : Cell) : Except CellFault Int :=
  let rva := row.fieldOrNull "Rva"
  if rva.isPresent then rva.toInt else .ok 0

/-- The row of a method that a type lists. -/
def methodDef (generics : List GenericParam) (marked : List Handle) (owner handle : Handle)
    (row : Cell) : Except CellFault MethodDef := do
  let params ← listedParams row
  let name := (← row.field "Name").toText
  let rva ← address row
  let signature := (← row.field "Signature").toBytes
  return {
    handle := handle
    name := name
    owner := owner
    flags := row.flags "Flags"
    implFlags := row.flags "ImplFlags"
    rva := rva
    signature := signature
    params := params
    genericParameters := genericNames generics handle
    compilerGenerated := marked.contains handle }

/-- The row of a method, when a type lists it. -/
def methodDef? (generics : List GenericParam) (types : List TypeOutline) (marked : List Handle)
    (handle : Handle) (row : Cell) : Except CellFault (Option MethodDef) :=
  match owner? types handle with
  | none => .ok none
  | some owner => (methodDef generics marked owner.handle handle row).map some

/-- The methods that types list. -/
def methodDefs (tables : Cell) (generics : List GenericParam) (types : List TypeOutline)
    (marked : List Handle) : Except CellFault (List MethodDef) := do
  let methods ← converted TableNumber.methodDef "MethodDef" (methodDef? generics types marked)
    tables
  return methods.filterMap id

/-- A type that the assembly passes on. -/
def exportedType (handle : Handle) (row : Cell) : Except CellFault ExportedType := do
  let nameSpace := (← row.field "TypeNamespace").toText
  return ⟨handle, nameSpace, (← row.field "TypeName").toText⟩

/-- The types that the assembly passes on. -/
def exportedTypes (tables : Cell) : Except CellFault (List ExportedType) :=
  converted TableNumber.exportedType "ExportedType" exportedType tables

/-- A generic method with arguments. -/
def methodSpec (handle : Handle) (row : Cell) : Except CellFault MethodSpec := do
  let method? ← (row.fieldOrNull "Method").toHandle?
  return ⟨handle, method?, (row.fieldOrNull "Instantiation").toBytes⟩

/-- The generic methods with arguments. -/
def methodSpecs (tables : Cell) : Except CellFault (List MethodSpec) :=
  converted TableNumber.methodSpec "MethodSpec" methodSpec tables

/-- A type given by a signature. -/
def typeSpec (handle : Handle) (row : Cell) : Except CellFault TypeSpec := do
  return ⟨handle, (← row.field "Signature").toBytes⟩

/-- The types given by signatures. -/
def typeSpecs (tables : Cell) : Except CellFault (List TypeSpec) :=
  converted TableNumber.typeSpec "TypeSpec" typeSpec tables

/-- Rows by their handles. -/
def byHandle {α : Type} (handle : α → Handle) (rows : List α) : OrderedMap Handle α :=
  OrderedMap.ofList (rows.map fun row => (handle row, row))

end Conversion

namespace RawAssembly

open Conversion

/-- The store of tables that are there. -/
def convertTables (raw : RawAssembly) (facts : HeaderFacts) : Except CellFault Store := do
  let generics ← genericParams raw.tables
  let nesting ← nesting raw.tables
  let typeRefs ← typeRefs raw.tables
  let types ← typeOutlines raw.tables
  let memberRefs ← memberRefs raw.tables
  let marked ← marked raw.tables typeRefs memberRefs types
  let typeDefs ← types.mapM (typeDef generics nesting)
  let methodDefs ← methodDefs raw.tables generics types marked
  let exportedTypes ← exportedTypes raw.tables
  let methodSpecs ← methodSpecs raw.tables
  let typeSpecs ← typeSpecs raw.tables
  return {
    typeDefs := byHandle (·.handle) typeDefs
    typeRefs := byHandle (·.handle) typeRefs
    exportedTypes := byHandle (·.handle) exportedTypes
    methodDefs := byHandle (·.handle) methodDefs
    memberRefs := byHandle (·.handle) memberRefs
    methodSpecs := byHandle (·.handle) methodSpecs
    typeSpecs := byHandle (·.handle) typeSpecs
    image := raw.image
    userStrings := UserStringHeap.text raw.userStrings?
    facts := facts }

/-- The store of an assembly read from a file of the given size. -/
def toStore (raw : RawAssembly) (fileSize : Int) : Except ConversionError Store := do
  let facts ← raw.facts fileSize
  match raw.tables with
  | .null => throw .noMetadata
  | _ => (raw.convertTables facts).mapError .malformed

end RawAssembly
end CilAtlas
