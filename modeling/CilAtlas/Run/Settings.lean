import CilAtlas.Disk.Tree
import CilAtlas.Report.Analysis

/-!
# Settings of a run

Which assembly is analysed, where the results go, and how.  A file with symbols
implies that symbols are loaded.
-/

namespace CilAtlas

/-- The settings of one run. -/
structure Settings where
  assemblyPath : Path
  outputPath : Path
  decompileProject : Bool := false
  removeDeadCode : Bool := false
  removeDeadStores : Bool := false
  ignoreCompilerGenerated : Bool := false
  nestedDirectories : Bool := false
  attemptSymbolLoad : Bool := false
  symbolPath? : Option Path := none
  noFormatting : Bool := false
  style : ParameterStyle := .names
  selfReference : Bool := false
  /-- The name of the tool that decompiles whole projects. -/
  tool : Text := lit "ilspycmd"

/-- Why settings cannot be used. -/
inductive SettingsError where
  | noAssembly (path : Path)
  | outputNotDirectory (path : Path)
  | noSymbols (path : Path)
deriving DecidableEq

/-- The wording of each error. -/
def SettingsError.message : SettingsError → Text
  | noAssembly path => lit "Assembly not found: " ++ path.text
  | outputNotDirectory path => lit "Output path is not a directory: " ++ path.text
  | noSymbols path => lit "Pdb file not found: " ++ path.text

/-- How a check of settings ends that does not succeed. -/
inductive SettingsFailure where
  | refused (error : SettingsError)
  /-- What the settings name cannot be looked up. -/
  | disk (error : DiskError)
deriving DecidableEq

namespace Settings

/-- Whether symbols are loaded. -/
def loadsSymbols (settings : Settings) : Bool :=
  settings.attemptSymbolLoad || settings.symbolPath?.isSome

/-- The name of the assembly: that of its file without extension. -/
def assemblyName (settings : Settings) : Text :=
  settings.assemblyPath.stem

/-- Where the report goes. -/
def reportPath (settings : Settings) : Path :=
  settings.outputPath.child (lit "assembly_analysis.json")

/-- Checks the settings against the files that are there. -/
def validate (settings : Settings) (disk : Disk) : Except SettingsFailure Unit := do
  if !(← (disk.isFile settings.assemblyPath).mapError .disk) then
    throw (.refused (.noAssembly settings.assemblyPath))
  let isThere ← (disk.isThere settings.outputPath).mapError .disk
  let isDirectory ← (disk.isDirectory settings.outputPath).mapError .disk
  if isThere && !isDirectory then
    throw (.refused (.outputNotDirectory settings.outputPath))
  match settings.symbolPath? with
  | none => return ()
  | some path =>
    if !(← (disk.isFile path).mapError .disk) then
      throw (.refused (.noSymbols path))

/-- How methods are listed. -/
def listingOptions (settings : Settings) : ListingOptions where
  removeDeadCode := settings.removeDeadCode
  removeDeadStores := settings.removeDeadStores
  noFormatting := settings.noFormatting

/-- What the analysis takes into account. -/
def analysisOptions (settings : Settings) : AnalysisOptions where
  style := settings.style
  selfReference := settings.selfReference
  ignoreCompilerGenerated := settings.ignoreCompilerGenerated
  assemblyName := settings.assemblyName

/-- The report of a store under the settings. -/
def analyze (settings : Settings) (store : Store) : Except AnalysisError Report :=
  store.analyze (store.lister settings.listingOptions) settings.analysisOptions

/-- The words that tell the tool where to find symbols. -/
def symbolWords (settings : Settings) (disk : Disk) : Except DiskError (List Text) :=
  match settings.symbolPath? with
  | some path => do return [lit "--use-varnames-from-pdb=" ++ (← disk.resolve path).text]
  | none => .ok (if settings.loadsSymbols then [lit "--use-varnames-from-pdb"] else [])

/-- The command that decompiles the whole project. -/
def projectCommand (settings : Settings) (disk : Disk) (launcher : Text) :
    Except DiskError (List Text) := do
  let flag (given : Bool) (name : String) : List Text := if given then [lit name] else []
  let output ← disk.resolve settings.outputPath
  let symbols ← settings.symbolWords disk
  return [launcher, settings.assemblyPath.text, lit "-p", lit "-o", output.text] ++
    flag settings.removeDeadCode "--no-dead-code" ++
    flag settings.removeDeadStores "--no-dead-stores" ++
    flag settings.nestedDirectories "--nested-directories" ++
    symbols ++ [lit "--disable-updatecheck"]

end Settings
end CilAtlas
