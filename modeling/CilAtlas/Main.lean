import CilAtlas.Assembly.PortableExecutable
import CilAtlas.CommandLine.Commands

/-!
# The program

Reads the files that the command line can mean, runs the command on them, and
writes back what it changed.  No other program is started, so whole projects are
not decompiled.
-/

namespace CilAtlas
namespace Program

/-- Portable executables are read from their bytes, no tool is found, and only the
user of the session has a home. -/
def environment (home? : Option Path) : Environment where
  openFile bytes := (PortableExecutable.parse bytes).map fun raw => raw.toStore
  findTool _ := none
  runTool _ disk := (.error (.notStarted []), disk)
  homeOf user := if user.isEmpty then home? else none

/-- The paths that an argument can mean: it may follow the name of an option, it
may start at a home directory, and a report may lie in the directory that it
names. -/
def pathsOf (env : Environment) (arg : Text) : List Path :=
  let values := [arg, arg.drop 2] ++ (CommandLine.splitValue arg).2.toList
  values.flatMap fun value =>
    let path := Path.ofText value
    [path, path.child (lit "assembly_analysis.json")] ++ (path.expandHome env.homeOf).toList

/-- The places on the way along a path. -/
def placesOf (here : List Text) (path : Path) : List (List Text) :=
  (List.range (path.parts.length + 1)).map fun n =>
    ((⟨path.anchor, path.parts.take n⟩ : Path).resolve here).parts

/-- The name of a place for the operating system. -/
def nameOf (place : List Text) : String :=
  ((⟨.root, place⟩ : Path).text.toString?).getD ""

/-- What the operating system has at a place. -/
def look (place : List Text) : IO (Option DiskNode) := do
  try
    let real ← IO.FS.realPath (nameOf place)
    if ← real.isDir then
      return some .directory
    let bytes ← IO.FS.readBinFile (nameOf place)
    return some (.file bytes.toList)
  catch _ => return none

/-- The files and directories at the given places. -/
def readDisk (here : List Text) (places : List (List Text)) : IO Disk := do
  let mut disk := Disk.emptyAt here
  for place in places do
    match ← look place with
    | some node => disk := disk.put place node
    | none => pure ()
  return disk

/-- Makes the files and directories that were not there before. -/
def writeDisk (before after : Disk) : IO Unit := do
  for (place, node) in after.nodes.entries do
    if before.node? place ≠ some node then
      match node with
      | .directory => IO.FS.createDirAll (nameOf place)
      | .file content => IO.FS.writeBinFile (nameOf place) ⟨content.toArray⟩

/-- Writes lines to a stream. -/
def writeLines (stream : IO.FS.Stream) (lines : List Text) : IO Unit := do
  for line in lines do
    stream.putStrLn ((line.toString?).getD "?")

end Program
end CilAtlas

open CilAtlas in
/-- Runs the command line. -/
def main (args : List String) : IO UInt32 := do
  let here := (Path.ofText (Text.ofString (← IO.currentDir).toString)).parts
  let home? := (← IO.getEnv "HOME").map fun home => Path.ofText (Text.ofString home)
  let env := Program.environment home?
  let args := args.map Text.ofString
  let places := (args.flatMap (Program.pathsOf env)).flatMap (Program.placesOf here)
  let disk ← Program.readDisk here places
  let (outcome, session) := CommandLine.run env args ⟨disk, []⟩
  Program.writeDisk disk session.disk
  Program.writeLines (← IO.getStdout) outcome.output
  Program.writeLines (← IO.getStderr) outcome.errors
  if outcome.escaped?.isSome then
    (← IO.getStderr).putStrLn "The input cannot be processed."
  return outcome.exitCode.toUInt32
