import CilAtlas.Json.Writer
import CilAtlas.Run.Session
import CilAtlas.Text.Blank

/-!
# Running an analysis

The assembly is opened, analysed and closed; then the project is decompiled if
that is asked for, and last the report is written.  The assembly is closed on
every way out, and before a tool is started.
-/

namespace CilAtlas
namespace Run

/-- Converts what is opened; when that fails it is closed again. -/
def convertOpened (path : Path) (converted : Except ConversionError Store) : Run Store := do
  match converted with
  | .ok store => return store
  | .error error =>
    record .closed
    match error with
    | .noHeader => throw (.load .noHeader)
    | .noMetadata => throw (.load .noMetadata)
    | .malformed _ => throw (.load (.unreadable path))

/-- Opens an assembly and reads its metadata. -/
def openStore (env : Environment) (path : Path) : Run Store := do
  match (← get).disk.find path with
  | .ok (.file content) =>
    match env.openFile content with
    | none => throw (.load (.unreadable path))
    | some convert =>
      record .opened
      convertOpened path (convert content.length)
  | .error (.system .nameTooLong text) => throw (.disk (.system .nameTooLong text))
  | _ => throw (.load (.notFound path))

/-- Closes an assembly. -/
def closeStore : Run Unit :=
  record .closed

/-- Runs a tool on the files of the session, and fails when the tool does or when it
is not known how it has ended. -/
def startTool (env : Environment) (launcher : Text) (command : List Text) : Run Unit := do
  record (.ran command)
  let session ← get
  let (ending, disk) := env.runTool command session.disk
  set { session with disk := disk }
  let result ← ofExcept .tool ending
  if result.exitStatus ≠ 0 then
    let detail := if result.errors.isEmpty then result.output else result.errors
    throw (.project (.failed (Path.ofText launcher).name result.exitStatus detail.trim))

/-- Decompiles the whole project with a tool; the result is the project file. -/
def makeProject (env : Environment) (settings : Settings) : Run Path := do
  match env.findTool settings.tool with
  | none => throw (.project (.noTool settings.tool))
  | some launcher =>
    let output ← ofExcept .disk ((← get).disk.resolve settings.outputPath)
    onDisk (Disk.ensureDirectory output)
    let command ← ofExcept .disk (settings.projectCommand (← get).disk launcher)
    startTool env launcher command
    return output.child (settings.assemblyName ++ lit ".csproj")

/-- Checks the settings against the files of the session. -/
def checkSettings (settings : Settings) : Run Unit := do
  match settings.validate (← get).disk with
  | .ok () => return ()
  | .error (.refused error) => throw (.settings error)
  | .error (.disk error) => throw (.disk error)

/-- The report of the assembly that the settings name. -/
def makeReport (env : Environment) (settings : Settings) : Run Report := do
  checkSettings settings
  let store ← openStore env settings.assemblyPath
  let result := settings.analyze store
  closeStore
  let report ← ofExcept .analysis result
  if settings.decompileProject then
    let _ ← makeProject env settings
  return report

/-- Writes a report to a file. -/
def saveReport (report : Report) (path : Path) : Run Unit :=
  writePieces path (report.document.prettyPieces 0)

/-- Analyses an assembly and writes the report; the result is its path. -/
def saveAnalysis (env : Environment) (settings : Settings) : Run Path := do
  let report ← makeReport env settings
  saveReport report settings.reportPath
  return settings.reportPath

end Run
end CilAtlas
