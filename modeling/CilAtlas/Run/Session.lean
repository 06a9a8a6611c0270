import CilAtlas.Assembly.Convert
import CilAtlas.Graph.OfDocument
import CilAtlas.Graph.Programs
import CilAtlas.Run.Settings
import CilAtlas.Text.Integer

/-!
# Sessions

The state that a run works on: the files, and a record of what was opened,
closed and started, in order.  A failure leaves the state as it was when the
failure arose.
-/

namespace CilAtlas

/-- What a tool leaves behind. -/
structure ToolResult where
  exitStatus : Int
  output : Text
  errors : Text

/-- Why it is not known how a tool has ended. -/
inductive ToolFault where
  /-- The system does not start the tool, for the reason that it words. -/
  | notStarted (reason : Text)
  /-- What the tool has written is no text. -/
  | notText
deriving DecidableEq

/-- What a run finds around it. -/
structure Environment where
  /-- Opens the bytes of a file; what is opened can be converted, given the size
  of the file. -/
  openFile : List UInt8 → Option (Int → Except ConversionError Store)
  /-- Where a tool is found. -/
  findTool : Text → Option Text
  /-- Runs a command, which may change files, however it ends. -/
  runTool : List Text → Disk → Except ToolFault ToolResult × Disk
  /-- The home directory of a user; the user of the session has the empty name. -/
  homeOf : Text → Option Path

/-- What a session records. -/
inductive Event where
  | opened
  | closed
  /-- The command was handed over to be run. -/
  | ran (command : List Text)
deriving DecidableEq

/-- Files and record of a session. -/
structure Session where
  disk : Disk
  events : List Event

/-- Why an assembly cannot be opened. -/
inductive LoadError where
  | notFound (path : Path)
  | unreadable (path : Path)
  | noHeader
  | noMetadata
deriving DecidableEq

/-- The wording of each error. -/
def LoadError.message : LoadError → Text
  | notFound path => lit "Assembly not found: " ++ path.text
  | unreadable path => lit "Unreadable binary " ++ path.text
  | noHeader => lit "No PE header available"
  | noMetadata => lit "No CLR metadata found; not a .NET assembly"

/-- Why a project is not decompiled. -/
inductive ProjectError where
  | noTool (name : Text)
  | failed (name : Text) (exitStatus : Int) (detail : Text)
deriving DecidableEq

/-- The wording of each error. -/
def ProjectError.message : ProjectError → Text
  | noTool name => lit "Decompiler launcher not found: " ++ name
  | failed name exitStatus detail =>
    name ++ lit " exited with status " ++ Text.ofInt exitStatus ++ lit ": " ++ detail

/-- Why a run fails. -/
inductive RunError where
  | settings (error : SettingsError)
  | load (error : LoadError)
  | analysis (error : AnalysisError)
  | project (error : ProjectError)
  | tool (fault : ToolFault)
  | disk (error : DiskError)
  /-- A text with a surrogate cannot be written. -/
  | unencodable
  /-- A file to be read as text is not well-formed. -/
  | undecodable
  /-- A file to be read as a document is none. -/
  | notDocument
  /-- A document holds a number that cannot be read or written. -/
  | numeral (error : NumeralError)
  /-- A path starts at the home of a user who has none. -/
  | noHome
  | document (fault : DocumentFault)
  | programs (fault : ProgramFault)
deriving DecidableEq

/-- The step that runs in a session. -/
abbrev Run := EStateM RunError Session

namespace Run

/-- Lets a failure of a pure step fail the run. -/
def ofExcept {ε α : Type} (wrap : ε → RunError) : Except ε α → Run α
  | .ok a => pure a
  | .error e => throw (wrap e)

/-- Work on the files of the session. -/
def onDisk {α : Type} (work : Disk.Work α) : Run α := fun session =>
  match work session.disk with
  | .ok a disk => .ok a { session with disk := disk }
  | .error e disk => .error (.disk e) { session with disk := disk }

/-- Records an event. -/
def record (event : Event) : Run Unit :=
  modify fun session => { session with events := session.events ++ [event] }

/-- The bytes of the pieces up to the first that cannot be written, and why it
cannot.  A missing piece is a number that is too large. -/
def encodePieces : List (Option Text) → List UInt8 × Option RunError
  | [] => ([], none)
  | none :: _ => ([], some (.numeral .tooLarge))
  | some piece :: rest =>
    match Utf8.encode? piece with
    | none => ([], some .unencodable)
    | some bytes =>
      let (others, error) := encodePieces rest
      (bytes ++ others, error)

/-- Writes pieces of text to a file, in a directory that is made when it is not
there.  When a piece cannot be written, those before it are. -/
def writePieces (path : Path) (pieces : List (Option Text)) : Run Unit := do
  onDisk (Disk.ensureDirectory path.parent)
  let (bytes, error) := encodePieces pieces
  onDisk (Disk.write path bytes)
  match error with
  | none => return ()
  | some error => throw error

end Run
end CilAtlas
