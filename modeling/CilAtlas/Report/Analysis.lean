import CilAtlas.Calls.Scan
import CilAtlas.Listing.Basic
import CilAtlas.Report.Basic

/-!
# Analysing an assembly

Every type is listed with its methods.  The bodies of the visited methods are
decoded once.  A first pass collects the local methods and the callees of each,
and a second one resolves the callees.  A body or a signature that cannot be read
shows in the fields of its own method only.
-/

namespace CilAtlas

/-- What an analysis takes into account. -/
structure AnalysisOptions where
  style : ParameterStyle
  /-- Record the caller itself in the place of a local callee. -/
  selfReference : Bool
  ignoreCompilerGenerated : Bool
  assemblyName : Text

/-- What writes the texts of methods. -/
structure Lister where
  /-- The text of a method, given its decoded body. -/
  listing : Handle → Option Body → Except ListingError Text
  /-- Result and parameter types, when they are known. -/
  signature? : Handle → Option (Text × List Text)

/-- Why an analysis fails as a whole. -/
inductive AnalysisError where
  | lookup (error : LookupError)
  | range (error : RangeError)
  | escape (error : EscapeError)
  | table (error : TableError)
deriving DecidableEq

namespace Store

/-- Result and parameter types of a method of the store. -/
def signatureTexts (store : Store) (handle : Handle) :
    Except (LookupError ⊕ SignatureFault) (Text × List Text) := do
  let method ← (store.methodDef handle).mapError .inl
  let signature ← (store.methodText method).mapError .inr
  return (signature.result, signature.parameters)

/-- The lister that writes instruction listings. -/
def lister (store : Store) (options : ListingOptions) : Lister where
  listing := store.listing options
  signature? handle := (store.signatureTexts handle).toOption

/-- What kind of type a row defines, by its flags and the type it extends. -/
def kindWord (store : Store) (row : TypeDef) : Text :=
  if row.isInterface then lit "Interface"
  else
    let base :=
      match row.extends? with
      | some handle => store.fullName handle
      | none => []
    if base = lit "System.Enum" then lit "Enum"
    else if base = lit "System.ValueType" ∧
        ¬ (row.nameSpace = lit "System" ∧ row.name = lit "Enum") then lit "Struct"
    else if base = lit "System.MulticastDelegate" then lit "Delegate"
    else lit "Class"

end Store

/-- Bytes in hexadecimal with blanks between them. -/
def ilBytesText (bytes : List UInt8) : Text :=
  Text.join (lit " ") (bytes.map Text.hexByte)

/-- Stands for the code of a method without address. -/
def absentCode : Text := lit "<abstract or external>"

/-- Stands for code that cannot be read. -/
def unreadableCode : Text := lit "<none>"

/-- Stands for code of no bytes. -/
def emptyCode : Text := lit "<empty>"

/-- Stands for the listing of a method that cannot be listed. -/
def listingFailed : Text := lit "    <decompilation failed>"

namespace Store

/-- Size and dump of a method's code, or what stands for it. -/
def ilBytes (store : Store) (method : MethodDef) (body? : Option Body) :
    Except RangeError (Int × Text) :=
  if method.rva = 0 then .ok (0, absentCode)
  else match body? with
    | none => .ok (0, unreadableCode)
    | some body => do
      let code ← store.codeBytes method body
      return ((code.length : Int), if code.isEmpty then emptyCode else ilBytesText code)

/-- The name that a report gives the parameter at a position. -/
def reportedName (params : List Param) (position : Nat) : Text :=
  match MethodDef.paramName? params position with
  | some name => name
  | none => lit "param" ++ Text.ofNat position

/-- Result type and parameters of a reported method. -/
def reportedSignature (lister : Lister) (method : MethodDef) : Text × List ReportParameter :=
  match lister.signature? method.handle with
  | none => ([], [])
  | some (result, types) =>
    (result, types.mapIdx fun i type => ⟨reportedName method.params (i + 1), type⟩)

/-- Listing and string literals of a reported method. -/
def reportedSource (lister : Lister) (method : MethodDef) (body? : Option Body) :
    Except EscapeError (Text × List Text) :=
  if method.hasBody && body?.isNone then .ok (listingFailed, [])
  else match lister.listing method.handle body? with
    | .error _ => .ok (listingFailed, [])
    | .ok text => do
      let literals ← Quoted.literals text
      return (text, literals)

/-- The entry of a scanned method, its calls already resolved. -/
def reportMethod (store : Store) (lister : Lister) (method : MethodDef) (entry : TableEntry)
    (body? : Option Body) (calls : List CallRecord) : Except AnalysisError ReportedMethod := do
  let (size, ilText) ← (store.ilBytes method body?).mapError .range
  let (returnType, parameters) := reportedSignature lister method
  let (source, literals) ← (reportedSource lister method body?).mapError .escape
  return {
    handle := method.handle
    name := entry.name
    rva := method.rva
    size := size
    parameters := parameters
    returnType := returnType
    stringLiterals := literals
    ilBytes := ilText
    source := source
    calls := calls }

/-- The methods of a type that an analysis visits. -/
def visitedMethods (store : Store) (options : AnalysisOptions) (type : TypeDef) :
    List MethodDef :=
  (store.methodsOf type).filter fun method =>
    !(method.compilerGenerated && options.ignoreCompilerGenerated)

/-- The methods of other assemblies that are referred to, each once. -/
def importedMethods (store : Store) : Except LookupError (List Text) := do
  let wanted := store.memberRefs.entries.filter fun entry =>
    (entry.2.parent?.any fun parent => parent.table = TableNumber.typeRef)
      && Signature.isMethodBlob entry.2.signature
  let keys ← wanted.mapM fun entry => store.keyOf entry.1 .names
  return keys.foldl (fun seen key => if seen.contains key then seen else seen ++ [key]) []

/-- The entries of scanned methods, each with the method's row, from decoded
bodies. -/
def reportMethods (store : Store) (lister : Lister) (options : AnalysisOptions)
    (bodies : Handle → Option Body) (table : LookupTable)
    (visited : List (MethodDef × ScannedMethod)) : Except AnalysisError (List ReportedMethod) :=
  visited.mapM fun (method, scanned) => do
    let calls ← (table.recordsOf scanned.pending (some scanned.method)
      options.selfReference).mapError .table
    store.reportMethod lister method scanned.method (bodies method.handle) calls

/-- Splits a list into runs of the given lengths. -/
def splitRuns {α : Type} : (lengths : List Nat) → List α → List (List α)
  | [], _ => []
  | length :: lengths, items => items.take length :: splitRuns lengths (items.drop length)

/-- The report of an assembly. -/
def analyze (store : Store) (lister : Lister) (options : AnalysisOptions) :
    Except AnalysisError Report := do
  let rows := store.typeDefs.values
  let names ← (rows.mapM fun row => store.keyOf row.handle .names).mapError .lookup
  let visited := rows.map (store.visitedMethods options)
  let bodies := store.sharedBodies visited.flatten
  let (table, scanned) ← (store.scan options.style (some bodies) visited.flatten).mapError .lookup
  let entries ← store.reportMethods lister options bodies table (visited.flatten.zip scanned)
  let groups := splitRuns (visited.map List.length) entries
  let types := ((rows.zip names).zip groups).map fun ((row, name), methods) =>
    (⟨name, store.kindWord row, methods⟩ : ReportedType)
  let importedMethods ← store.importedMethods.mapError .lookup
  let importedTypes ←
    (store.typeRefs.keys.mapM fun handle => store.keyOf handle .names).mapError .lookup
  let exportedTypes ←
    (store.exportedTypes.keys.mapM fun handle => store.keyOf handle .names).mapError .lookup
  return {
    assembly := options.assemblyName
    facts := store.facts
    types := types
    importedMethods := importedMethods
    importedTypes := importedTypes
    exportedTypes := exportedTypes }

end Store
end CilAtlas
