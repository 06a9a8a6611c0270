import CilAtlas.Graph.Document
import CilAtlas.Graph.GraphMl
import CilAtlas.Graph.Merge
import CilAtlas.Json.Reader
import CilAtlas.Packing.OfPath
import CilAtlas.Run.Session

/-!
# Loading and exporting call graphs

Graphs are loaded from report files, merged when there are several, and written
as a document or as GraphML.  GraphML is packed when the name of its file asks for
that.
-/

namespace CilAtlas

/-- The formats in which a graph is written. -/
inductive GraphFormat where
  | json
  | graphMl
deriving DecidableEq

namespace Run

/-- The text in a file. -/
def readText (path : Path) : Run Text := do
  let bytes ← ofExcept .disk ((← get).disk.read path)
  match Utf8.decode? bytes with
  | none => throw .undecodable
  | some text => return text

/-- The document in a file. -/
def readDocument (path : Path) : Run Json := do
  match Json.parse (← readText path) with
  | .ok document => return document
  | .error .malformed => throw .notDocument
  | .error (.numeral error) => throw (.numeral error)

/-- The graph of a report file. -/
def loadGraph (path : Path) : Run CallGraph := do
  let document ← readDocument path
  let source ← ofExcept .disk ((← get).disk.resolve path)
  ofExcept .document (CallGraph.ofDocument document (.text path.stem) (.text source.text))

/-- The graphs of several report files in one. -/
def mergeGraphs (paths : List Path) : Run CallGraph := do
  let merging ← paths.foldlM (fun (merging : Merging) path => do
    let graph ← loadGraph path
    ofExcept .programs (merging.add path.text graph)) Merging.start
  ofExcept .programs merging.finish

/-- Writes a text to a file, packed as its name asks. -/
def writePacked (path : Path) (text : Text) : Run Unit := do
  onDisk (Disk.ensureDirectory path.parent)
  match Utf8.encode? text with
  | some bytes => onDisk (Disk.write path ((Packing.ofPath path).pack bytes))
  | none =>
    onDisk (Disk.write path [])
    throw .unencodable

/-- Writes a graph to a file. -/
def exportGraph (format : GraphFormat) (graph : CallGraph) (destination : Path) : Run Unit := do
  match format with
  | .json =>
    let document ← ofExcept .programs (graph.document destination.stem)
    writePieces destination (document.prettyPieces 0)
  | .graphMl => writePacked destination graph.sanitized.graphMl

end Run
end CilAtlas
