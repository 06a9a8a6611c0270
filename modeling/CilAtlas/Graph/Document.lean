import CilAtlas.Graph.Basic
import CilAtlas.Graph.Programs
import CilAtlas.Report.Basic

/-!
# Call graphs as documents

The graph's name, programs and sources, then its nodes with their attributes and
its edges.
-/

namespace CilAtlas
namespace CallGraph

/-- The programs of the nodes. -/
def nodePrograms (graph : CallGraph) : Except ProgramFault (List Json) := do
  let programs ← graph.nodes.values.foldlM (fun programs attributes =>
    programs.add ((attributes.get? (lit "program")).getD (.text (lit "unknown")))) Programs.empty
  programs.sorted

/-- The sources of the graph: those noted by a merge, or its own. -/
def sourcesDocument (graph : CallGraph) : Json :=
  match graph.attributes.get? (lit "sources") with
  | some sources => sources
  | none =>
    let source := (graph.attributes.get? (lit "source")).getD .null
    .list (if source.isPresent then [source] else [])

/-- A node with its attributes. -/
def nodeDocument (node : Text × Attributes) : Json :=
  .object ((OrderedMap.ofList [(lit "id", Json.text node.1)]).insertAll node.2.entries).entries

/-- An edge with its ends. -/
def edgeDocument (edge : Text × Text) : Json :=
  .record [("source", .text edge.1), ("target", .text edge.2)]

/-- The document of a graph that has no name of its own but the given one. -/
def document (graph : CallGraph) (name : Text) : Except ProgramFault Json := do
  let programs ← graph.nodePrograms
  return .record [
    ("graph", (graph.attributes.get? (lit "name")).getD (.text name)),
    ("programs", .list programs),
    ("sources", graph.sourcesDocument),
    ("node_count", .int graph.nodeCount),
    ("edge_count", .int graph.edgeCount),
    ("nodes", .list (graph.nodes.entries.map nodeDocument)),
    ("edges", .list (graph.edges.map edgeDocument))]

end CallGraph
end CilAtlas
