import CilAtlas.CommandLine.Arguments
import CilAtlas.Run.Analyze
import CilAtlas.Run.Export
import CilAtlas.Text.Terminal

/-!
# The commands

`analyze` analyses an assembly and writes its report; `callgraph-export` reads
reports and writes their call graph.  A command line that cannot be used ends
with status 2, a run that fails with status 1.  Lines are written without
sequences for a terminal.
-/

namespace CilAtlas
namespace CommandLine

/-- The version of the program. -/
def version : Text := lit "0.1.0"

/-- How a command ends: its status, the lines for both outputs, and the error
that no command handles. -/
structure Outcome where
  exitCode : Nat
  output : List Text
  errors : List Text
  escaped? : Option RunError

/-- A summary of the commands. -/
def usage : List Text := [
  lit "Usage: [--version] [--help] COMMAND [OPTIONS]",
  lit "",
  lit "Commands:",
  lit "  analyze           Analyze an assembly and write assembly_analysis.json.",
  lit "  callgraph-export  Export the call graph of one or more analysis reports."]

namespace Outcome

/-- An error that no command handles. -/
def escape (error : RunError) : Outcome := ⟨1, [], [], some error⟩

/-- Nothing went wrong, provided that the lines can be written. -/
def success (output : List Text) : Outcome :=
  let lines := output.map Text.withoutSequences
  if lines.any fun line => line.any CodePoint.isSurrogate then escape .unencodable
  else ⟨0, lines, [], none⟩

/-- The run failed with a message. -/
def failure (message : Text) : Outcome :=
  ⟨1, [], [message.withoutSequences.escapeSurrogates], none⟩

/-- The command line is not complete. -/
def incomplete (message : Text) : Outcome := ⟨1, usage, [message], none⟩

/-- The command line cannot be used. -/
def misuse (error : UsageError) : Outcome := ⟨2, [], [error.message], none⟩

end Outcome

/-- A command in a session; it ends with an outcome in any case. -/
abbrev Command := StateM Session

/-- Runs a step and hands over its error as a value. -/
def attempt {α : Type} (step : Run α) : Command (Except RunError α) := fun session =>
  match step session with
  | .ok a session => (.ok a, session)
  | .error e session => (.error e, session)

/-- The message of an error that a user can mend: of settings, assemblies, tools
and files. -/
def expectedMessage? : RunError → Option Text
  | .settings e => some e.message
  | .load e => some e.message
  | .project e => some e.message
  | .tool (.notStarted reason) => some reason
  | .disk (.system fault path) => some (fault.message path)
  | _ => none

/-- The value of an option that must lead to a file. -/
def existingFile (disk : Disk) (name : String) (value : Text) : Except UsageError Path :=
  match disk.find (Path.ofText value) with
  | .ok (.file _) => .ok (Path.ofText value)
  | _ => .error (.invalidValue name value)

/-- The value of an option that must not lead to a file. -/
def directoryPlace (disk : Disk) (name : String) (value : Text) : Except UsageError Path :=
  match disk.find (Path.ofText value) with
  | .ok (.file _) | .error (.name _) => .error (.invalidValue name value)
  | _ => .ok (Path.ofText value)

/-- The value of an option that can name a file. -/
def anyPlace (disk : Disk) (name : String) (value : Text) : Except UsageError Path :=
  match disk.find (Path.ofText value) with
  | .error (.name _) => .error (.invalidValue name value)
  | _ => .ok (Path.ofText value)

/-- Applies a check to a value that is given. -/
def optionally {α : Type} (check : Text → Except UsageError α) :
    Option Text → Except UsageError (Option α)
  | none => .ok none
  | some value => (check value).map some

/-- Refuses arguments that belong to no option. -/
def noMore : List Text → Except UsageError Unit
  | [] => .ok ()
  | value :: _ => .error (.unexpectedArgument value)

/-! ## Analysing -/

/-- The options of `analyze`. -/
inductive AnalyzeOption where
  | help
  | assembly
  | outputPath
  | decompileProject
  | removeDeadCode
  | removeDeadStores
  | ignoreCompilerGenerated
  | nestedDirectories
  | attemptSymbolLoad
  | symbolFile
  | noFormatting
  | parameterKeys
  | legacyCallRecords
  | tool
  | verbose
deriving DecidableEq

/-- The names of the options of `analyze`. -/
def analyzeOptions : List (OptionSpec AnalyzeOption) := [
  ⟨.help, ["--help"], false⟩,
  ⟨.assembly, ["--assembly"], true⟩,
  ⟨.outputPath, ["--output-path"], true⟩,
  ⟨.decompileProject, ["--include-full-project-decompilation"], false⟩,
  ⟨.removeDeadCode, ["--remove-dead-code"], false⟩,
  ⟨.removeDeadStores, ["--remove-dead-stores"], false⟩,
  ⟨.ignoreCompilerGenerated, ["--ignore-compiler-generated"], false⟩,
  ⟨.nestedDirectories, ["--nested-directories"], false⟩,
  ⟨.attemptSymbolLoad, ["--attempt-symbol-load"], false⟩,
  ⟨.symbolFile, ["--use-pdb-file"], true⟩,
  ⟨.noFormatting, ["--no-formatting"], false⟩,
  ⟨.parameterKeys, ["--parameter-keys"], true⟩,
  ⟨.legacyCallRecords, ["--legacy-call-records"], false⟩,
  ⟨.tool, ["--ilspycmd"], true⟩,
  ⟨.verbose, ["--verbose", "-v"], false⟩]

/-- Folds the case of a word that is compared with ASCII words; the long s is the
only letter outside ASCII that folds to a letter of theirs. -/
def foldCase (word : Text) : Text :=
  word.map fun c => if c.toNat = 0x17F then CodePoint.ofChar 's' else c.toLowerAscii

/-- The parameter style that a word names, in any case. -/
def styleOf (value : Text) : Except UsageError ParameterStyle :=
  if foldCase value = lit "names" then .ok .names
  else if foldCase value = lit "types" then .ok .types
  else .error (.invalidValue "--parameter-keys" value)

/-- The checked values of the options of `analyze`; the two paths may lack. -/
structure AnalyzeRequest where
  assembly? : Option Path
  outputPath? : Option Path
  /-- The settings, given the two paths. -/
  settings : Path → Path → Settings

/-- Checks the options of `analyze`. -/
def analyzeRequest (disk : Disk) (parsed : Parsed AnalyzeOption) :
    Except UsageError AnalyzeRequest := do
  let assembly? ← optionally (existingFile disk "--assembly") (parsed.value? .assembly)
  let outputPath? ← optionally (directoryPlace disk "--output-path") (parsed.value? .outputPath)
  let symbols? ← optionally (existingFile disk "--use-pdb-file") (parsed.value? .symbolFile)
  let style? ← optionally styleOf (parsed.value? .parameterKeys)
  noMore parsed.rest
  return {
    assembly? := assembly?
    outputPath? := outputPath?
    settings := fun assembly output => {
      assemblyPath := assembly
      outputPath := output
      decompileProject := parsed.has .decompileProject
      removeDeadCode := parsed.has .removeDeadCode
      removeDeadStores := parsed.has .removeDeadStores
      ignoreCompilerGenerated := parsed.has .ignoreCompilerGenerated
      nestedDirectories := parsed.has .nestedDirectories
      attemptSymbolLoad := parsed.has .attemptSymbolLoad
      symbolPath? := symbols?
      noFormatting := parsed.has .noFormatting
      style := style?.getD .names
      selfReference := parsed.has .legacyCallRecords
      tool := (parsed.value? .tool).getD (lit "ilspycmd") } }

/-- Analyses an assembly and writes its report. -/
def analyzeCommand (env : Environment) (settings : Settings) : Command Outcome := do
  match ← attempt (Run.makeReport env settings) with
  | .error error =>
    match expectedMessage? error with
    | some message => return .failure (lit "Error during assembly analysis: " ++ message)
    | none => return .escape error
  | .ok report =>
    match ← attempt (Run.saveReport report settings.reportPath) with
    | .error (.disk (.system fault path)) =>
      return .failure (lit "Error serializing result to JSON: " ++ fault.message path)
    | .error error => return .escape error
    | .ok () =>
      return .success [lit "Analysis result written to: " ++ settings.reportPath.text]

/-- Runs `analyze`. -/
def analyze (env : Environment) (args : List Text) : Command Outcome := do
  match parse analyzeOptions true args with
  | .error error => return .misuse error
  | .ok parsed =>
    if parsed.has .help then return .success usage
    match analyzeRequest (← get).disk parsed with
    | .error error => return .misuse error
    | .ok request =>
      match request.assembly?, request.outputPath? with
      | none, _ => return .incomplete (lit "You must specify --assembly <path>.")
      | some _, none => return .incomplete (lit "You must specify --output-path <path>.")
      | some assembly, some output => analyzeCommand env (request.settings assembly output)

/-! ## Exporting -/

/-- The options of `callgraph-export`. -/
inductive ExportOption where
  | help
  | input
  | output
  | format
deriving DecidableEq

/-- The names of the options of `callgraph-export`. -/
def exportOptions : List (OptionSpec ExportOption) := [
  ⟨.help, ["--help"], false⟩,
  ⟨.input, ["--input", "-i"], true⟩,
  ⟨.output, ["--output", "-o"], true⟩,
  ⟨.format, ["--format", "-f"], true⟩]

/-- The format that a word names, in any case. -/
def formatOf (value : Text) : Except UsageError GraphFormat :=
  if value.toLowerAscii = lit "json" then .ok .json
  else if value.toLowerAscii = lit "graphml" then .ok .graphMl
  else .error (.invalidValue "--format" value)

/-- What `callgraph-export` is asked to do. -/
structure ExportRequest where
  inputs : List Path
  output : Path
  format : GraphFormat

/-- Checks the options of `callgraph-export`. -/
def exportRequest (disk : Disk) (parsed : Parsed ExportOption) :
    Except UsageError ExportRequest := do
  let inputs ← (parsed.values .input).mapM (existingFile disk "--input")
  if inputs.isEmpty then throw (.optionMissing "--input")
  let output ← match parsed.value? .output with
    | none => throw (.optionMissing "--output")
    | some value => anyPlace disk "--output" value
  noMore parsed.rest
  let format? ← optionally formatOf (parsed.value? .format)
  return ⟨inputs, output, format?.getD .json⟩

/-- The path with the home directory of a user in place of a tilde. -/
def expandHome (env : Environment) (path : Path) : Run Path :=
  match path.expandHome env.homeOf with
  | some expanded => pure expanded
  | none => throw .noHome

/-- Loads the graphs of the inputs and writes them as one; the result is the graph
and where it went. -/
def exportInputs (env : Environment) (request : ExportRequest) : Run (CallGraph × Path) := do
  let disk := (← get).disk
  let inputs ← request.inputs.mapM fun path => do
    Run.ofExcept .disk (disk.resolve (← expandHome env path))
  let graph ← match inputs with
    | [path] => Run.loadGraph path
    | paths => Run.mergeGraphs paths
  let output ← expandHome env request.output
  Run.exportGraph request.format graph output
  return (graph, output)

/-- Runs `callgraph-export`. -/
def callGraphExport (env : Environment) (args : List Text) : Command Outcome := do
  match parse exportOptions true args with
  | .error error => return .misuse error
  | .ok parsed =>
    if parsed.has .help then return .success usage
    match exportRequest (← get).disk parsed with
    | .error error => return .misuse error
    | .ok request =>
      match ← attempt (exportInputs env request) with
      | .error error => return .escape error
      | .ok (graph, output) =>
        return .success [
          lit "Call graph with " ++ Text.ofNat graph.nodeCount ++ lit " nodes and " ++
            Text.ofNat graph.edgeCount ++ lit " edges written to " ++ output.text]

/-! ## The program -/

/-- The options before a command. -/
inductive ProgramOption where
  | help
  | version
deriving DecidableEq

/-- The names of the options before a command. -/
def programOptions : List (OptionSpec ProgramOption) := [
  ⟨.help, ["--help"], false⟩,
  ⟨.version, ["--version", "-V"], false⟩]

/-- The command with the given name. -/
def commandOf? (env : Environment) (name : Text) : Option (List Text → Command Outcome) :=
  if name = lit "analyze" then some (analyze env)
  else if name = lit "callgraph-export" then some (callGraphExport env)
  else none

/-- Runs a command line.  In the place of a command, even behind two dashes, help
can be asked for. -/
def run (env : Environment) (args : List Text) : Command Outcome := do
  match parse programOptions false args with
  | .error error => return .misuse error
  | .ok parsed =>
    if parsed.has .help then return .success usage
    match parsed.rest with
    | [] =>
      if parsed.has .version then return .success [version]
      return ⟨1, usage, [], none⟩
    | name :: args =>
      match commandOf? env name with
      | none =>
        match parse programOptions false (name :: args) with
        | .error error => return .misuse error
        | .ok again =>
          if again.has .help then return .success usage
          return .misuse (.noSuchCommand name)
      | some command =>
        if parsed.has .version then return .success [version]
        command args

end CommandLine
end CilAtlas
